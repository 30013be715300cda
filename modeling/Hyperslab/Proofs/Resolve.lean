import Hyperslab.Proofs.Binding

/-!
# Resolving a specification

When a specification resolves against a shape, and what it resolves to, both read off
the binding of entries to axes.
-/

namespace Hyperslab
namespace MaskSpec

variable {m : MaskSpec}

/-! ## A bound axis -/

/-- The interval on an axis: the whole of it, a single index, or what the bounds say. -/
def intervalAt (m : MaskSpec) (binder : Option Nat) (extent : Nat) : Interval :=
  match binder with
  | none => ⟨0, extent, 1⟩
  | some i =>
    if m.shrinkMask.testBit i then
      let first := m.begins.getD i 0
      let wrapped := if first < 0 then extent + first else first
      ⟨wrapped, wrapped + 1, 1⟩
    else
      .indices extent (if m.beginMask.testBit i then none else some (m.begins.getD i 0))
        (if m.endMask.testBit i then none else some (m.ends.getD i 0)) (m.strides.getD i 0)

/-- Whether the final shape leaves the axis out. -/
def droppedAt (m : MaskSpec) (binder : Option Nat) : Bool := binder.any m.shrinkMask.testBit

/-- The entry of a binder. -/
def boundEntry (m : MaskSpec) : Option Nat → Entry
  | none => .full
  | some i => m.entryAt i

theorem entryAt_shrink {i : Nat} (ht : m.takes i = true) (hs : m.shrinkMask.testBit i = true) :
    m.entryAt i = .fixed (m.begins.getD i 0) := by
  rw [takes, Bool.and_eq_true, Bool.not_eq_true', Bool.not_eq_true'] at ht
  simp [entryAt, decoded, ht, hs]

theorem entryAt_plain {i : Nat} (ht : m.takes i = true) (hs : m.shrinkMask.testBit i = false) :
    m.entryAt i = Entry.ofRange (if m.beginMask.testBit i then none else some (m.begins.getD i 0))
      (if m.endMask.testBit i then none else some (m.ends.getD i 0)) (m.strides.getD i 0) := by
  rw [takes, Bool.and_eq_true, Bool.not_eq_true', Bool.not_eq_true'] at ht
  simp [entryAt, decoded, ht, hs]

theorem suits_ofRange {extent : Nat} {start stop : Option Int} {step : Int} :
    (Entry.ofRange start stop step).Suits extent ↔ step ≠ 0 := by
  unfold Entry.ofRange
  split_ifs with h
  · simp only [Bool.and_eq_true, beq_iff_eq] at h
    exact iff_of_true trivial (by omega)
  · rfl

theorem selection_ofRange {extent : Nat} {start stop : Option Int} {step : Int} (h : step ≠ 0) :
    (Entry.ofRange start stop step).selection extent =
      ⟨extent, .indices extent start stop step, false⟩ := by
  unfold Entry.ofRange
  split_ifs with hfull
  · simp only [Bool.and_eq_true, beq_iff_eq, Option.isNone_iff_eq_none] at hfull
    obtain ⟨⟨rfl, rfl⟩, rfl⟩ := hfull
    rfl
  · rw [Entry.selection, Interval.ofBounds_eq_indices h]

/-- When an entry suits the axis that it takes. -/
theorem suits_entryAt {i extent : Nat} (ht : m.takes i = true) :
    (m.entryAt i).Suits extent ↔
      (m.shrinkMask.testBit i = true →
        -(extent : Int) ≤ m.begins.getD i 0 ∧ m.begins.getD i 0 < extent) ∧
      (m.shrinkMask.testBit i = false → m.strides.getD i 0 ≠ 0) := by
  cases hs : m.shrinkMask.testBit i with
  | true =>
    rw [entryAt_shrink ht hs]
    exact ⟨fun h => ⟨fun _ => h, (nomatch ·)⟩, fun h => h.1 rfl⟩
  | false =>
    rw [entryAt_plain ht hs, suits_ofRange]
    exact ⟨fun h => ⟨(nomatch ·), fun _ => h⟩, fun h => h.2 rfl⟩

theorem selection_boundEntry {binder : Option Nat} {extent : Nat}
    (h : ∀ i, binder = some i → m.takes i = true ∧ m.strides.getD i 0 ≠ 0) :
    (m.boundEntry binder).selection extent =
      ⟨extent, m.intervalAt binder extent, m.droppedAt binder⟩ := by
  cases binder with
  | none => rfl
  | some i =>
    obtain ⟨ht, hstride⟩ := h i rfl
    show (m.entryAt i).selection extent = ⟨extent, if _ then _ else _, m.shrinkMask.testBit i⟩
    cases hs : m.shrinkMask.testBit i with
    | true =>
      rw [entryAt_shrink ht hs]
      rfl
    | false =>
      rw [entryAt_plain ht hs, selection_ofRange hstride]
      rfl

theorem dropped_entryAt {i : Nat} (ht : m.takes i = true) (extent : Nat) :
    ((m.entryAt i).selection extent).dropped = m.shrinkMask.testBit i := by
  cases hs : m.shrinkMask.testBit i with
  | true =>
    rw [entryAt_shrink ht hs]
    rfl
  | false =>
    rw [entryAt_plain ht hs]
    unfold Entry.ofRange
    split_ifs <;> rfl

/-! ## All places -/

/-- The extents of the result: one for a new axis, and the next size for an axis that is not left
out. -/
def extentsFrom (m : MaskSpec) : List Place → Shape → Shape
  | .inserted :: ps, sizes => 1 :: extentsFrom m ps sizes
  | .spanned :: ps, n :: sizes => n :: extentsFrom m ps sizes
  | .bound i :: ps, n :: sizes =>
    if m.shrinkMask.testBit i then extentsFrom m ps sizes else n :: extentsFrom m ps sizes
  | _, _ => []

/-- An entry that is bound to an axis takes one. -/
def Proper (m : MaskSpec) (ps : List Place) : Prop := ∀ i, Place.bound i ∈ ps → m.takes i = true

theorem places_proper (hone : m.OneEllipsis) (rank : Nat) : m.Proper (m.places rank) := by
  intro i hi
  have hmem : some i ∈ (m.places rank).filterMap Place.binder? :=
    List.mem_filterMap.mpr ⟨.bound i, hi, rfl⟩
  rw [binders_places hone] at hmem
  exact (some_mem_binders.mp hmem).2

theorem takers_places {ps : List Place} (h : m.Proper ps) :
    Entry.takers (ps.map m.entryOf) = (ps.filterMap Place.binder?).map m.boundEntry := by
  induction ps with
  | nil => rfl
  | cons p ps ih =>
    have hps : m.Proper ps := fun i hi => h i (List.mem_cons_of_mem _ hi)
    rw [List.map_cons, Entry.takers]
    cases p with
    | inserted => exact ih hps
    | spanned => exact congrArg (Entry.full :: ·) (ih hps)
    | bound i =>
      have htakes : (m.entryAt i).takesAxis = true :=
        (m.takesAxis_entryAt i).trans (h i List.mem_cons_self)
      rw [entryOf, List.filter_cons_of_pos htakes]
      exact congrArg (m.entryAt i :: ·) (ih hps)

theorem finalShape_places {ps : List Place} (h : m.Proper ps) (dims : Shape) :
    (Entry.slots (ps.map m.entryOf) dims).filterMap Slot.finalExtent? =
      m.extentsFrom ps
        (((Entry.slots (ps.map m.entryOf) dims).filterMap Slot.axis?).map (·.size)) := by
  induction ps generalizing dims with
  | nil => rfl
  | cons p ps ih =>
    have hps : m.Proper ps := fun i hi => h i (List.mem_cons_of_mem _ hi)
    cases p with
    | inserted => exact congrArg (1 :: ·) (ih hps dims)
    | spanned =>
      cases dims with
      | nil => rfl
      | cons d dims => exact congrArg (_ :: ·) (ih hps dims)
    | bound i =>
      have htakes := h i List.mem_cons_self
      have htakesAxis : (m.entryAt i).takesAxis = true := (m.takesAxis_entryAt i).trans htakes
      rw [List.map_cons, entryOf]
      cases dims with
      | nil =>
        rw [Entry.slots_nil htakesAxis]
        rfl
      | cons d dims =>
        have hdropped := dropped_entryAt htakes d
        rw [Entry.slots_cons htakesAxis,
          List.filterMap_cons_some (show Slot.axis? (.axis _) = some _ from rfl), List.map_cons,
          extentsFrom, ← ih hps dims]
        by_cases hs : m.shrinkMask.testBit i = true
        · rw [if_pos hs, List.filterMap_cons_none
            (show Slot.finalExtent? (.axis _) = none from if_pos (hdropped.trans hs))]
        · rw [if_neg hs, List.filterMap_cons_some
            (show Slot.finalExtent? (.axis _) = some _ from if_neg (hdropped ▸ hs))]

/-! ## Faults -/

/-- An argument is refused, in words that cite no other numbers than some given ones. -/
structure Cites (P : Int → Prop) (e : Fault) : Prop where
  sort : e.sort = .argument
  legible : e.isLegible = e.numbers.all Text.legible
  numbers : ∀ n ∈ e.numbers, P n

namespace Cites

variable {P : Int → Prop} {e : Fault}

theorem kind (h : Cites P e) : e.kind = if e.isLegible then .argument else .value := by
  rw [Fault.kind, h.sort]

theorem kind_of_legible (h : Cites P e) (hlegible : ∀ n, P n → Text.legible n = true) :
    e.kind = .argument := by
  rw [h.kind, h.legible, if_pos (List.all_eq_true.mpr fun n hn => hlegible n (h.numbers n hn))]

theorem zeroStride (axis : Nat) : Cites P (.zeroStride axis) :=
  ⟨rfl, rfl, fun _ hn => absurd hn List.not_mem_nil⟩

theorem tooManyEntries (rank : Nat) : Cites P (.tooManyEntries rank) :=
  ⟨rfl, rfl, fun _ hn => absurd hn List.not_mem_nil⟩

end Cites

section Errors

variable {P : Int → Prop} {e : Fault}

theorem entry_error {i : Nat} {first last stride : Int}
    (h : m.entry i first last stride = .error e) : Cites P e := by
  unfold entry at h
  split_ifs at h
  cases h
  exact .zeroStride i

theorem entriesFrom_error {i : Nat} {items : List (Int × Int × Int)}
    (h : m.entriesFrom i items = .error e) : Cites P e := by
  induction items generalizing i with
  | nil => cases h
  | cons item items ih =>
    rcases except_bind_eq_error.mp h with h | ⟨_, _, h⟩
    · exact entry_error h
    · exact ih (except_bind_pure_eq_error.mp h)

theorem validate_error (hmask : P m.ellipsisMask) (h : m.validate = .error e) : Cites P e := by
  unfold validate at h
  split_ifs at h <;> cases h
  · exact ⟨rfl, rfl, fun n hn => List.mem_singleton.mp hn ▸ hmask⟩
  · exact ⟨rfl, rfl, fun _ hn => absurd hn List.not_mem_nil⟩

theorem point_error {axis extent : Nat} {i : Int} (hindex : P i) (hextent : P extent)
    (h : Entry.point axis extent i = .error e) : Cites P e := by
  unfold Entry.point at h
  dsimp only at h
  split_ifs at h
  all_goals
    cases h
    refine ⟨rfl, rfl, fun n hn => ?_⟩
    rcases List.mem_pair.mp hn with rfl | rfl
    · exact hindex
    · exact hextent

theorem selectFrom_error {axis : Nat} {es : List Entry} {dims : Shape}
    (hindices : ∀ i, Entry.fixed i ∈ es → P i) (hextents : ∀ d ∈ dims, P (d : Nat))
    (h : Entry.selectFrom axis es dims = .error e) : Cites P e := by
  induction es generalizing axis dims with
  | nil => cases h
  | cons entry es ih =>
    cases dims with
    | nil => cases h
    | cons d dims =>
      rcases except_bind_eq_error.mp h with h | ⟨_, _, h⟩
      · cases entry with
        | fixed i =>
          exact point_error (hindices i List.mem_cons_self) (hextents d List.mem_cons_self) h
        | range start stop step =>
          rw [Entry.select] at h
          split_ifs at h
          cases h
          exact .zeroStride axis
        | full | newAxis | ellipsis => cases h
      · exact ih (fun i hi => hindices i (List.mem_cons_of_mem entry hi))
          (fun n hn => hextents n (List.mem_cons_of_mem d hn)) (except_bind_pure_eq_error.mp h)

end Errors

/-- The numbers that a refusal may be told with: the mask of the ellipses, and the indices and
extents. -/
def Told (m : MaskSpec) (shape : Shape) (n : Int) : Prop :=
  n = m.ellipsisMask ∨ n ∈ m.begins ∨ ∃ d ∈ shape, n = (d : Nat)

/-- Spreading brings in no single index. -/
theorem fixed_mem_of_mem_spread {rank : Nat} {es : List Entry} {i : Int}
    (h : Entry.fixed i ∈ Entry.spread rank es) : Entry.fixed i ∈ es := by
  obtain ⟨entry, hentry, hi⟩ := List.mem_flatMap.mp h
  cases entry with
  | ellipsis => cases List.eq_of_mem_replicate hi
  | full | fixed _ | range _ _ _ | newAxis =>
    rw [List.mem_singleton.mp hi]
    unfold Entry.closed at hentry
    split_ifs at hentry
    · exact hentry
    · exact (List.mem_append.mp hentry).resolve_right fun h => by cases List.mem_singleton.mp h

theorem mem_begins_of_entries {es : List Entry} {i : Int} (h : m.entries = .ok es)
    (hi : Entry.fixed i ∈ es) : i ∈ m.begins := by
  obtain ⟨_, _, rfl⟩ := entries_eq_ok.mp h
  obtain ⟨n, hn, hentry⟩ := List.mem_map.mp hi
  have hbegin : m.begins.getD n 0 = i := by
    unfold entryAt decoded at hentry
    split_ifs at hentry <;> try (unfold Entry.ofRange at hentry; split_ifs at hentry)
    injection hentry
  have hlt : n < m.begins.length := List.mem_range.mp hn
  rw [← hbegin, List.getD_eq_getElem?_getD, List.getElem?_eq_getElem hlt]
  exact List.getElem_mem hlt

theorem resolve_masks_error {shape : Shape} {e : Fault}
    (h : Resolution.ofValue shape (.masks m) = .error e) : Cites (m.Told shape) e := by
  have h : (m.entries >>= Entry.resolve shape) = .error e := h
  rcases except_bind_eq_error.mp h with h | ⟨es, hes, h⟩
  · rcases except_bind_eq_error.mp h with h | ⟨_, _, h⟩
    · exact validate_error (.inl rfl) h
    · exact entriesFrom_error h
  · rcases Entry.resolve_error (count_ellipsis_le hes) h with rfl | h
    · exact .tooManyEntries _
    · refine selectFrom_error (fun i hi => ?_) (fun d hd => .inr (.inr ⟨d, hd, rfl⟩)) h
      have hspread := List.mem_of_mem_filter hi
      exact .inr (.inl (mem_begins_of_entries hes (fixed_mem_of_mem_spread hspread)))

/-! ## Results -/

/-- A specification that resolves against a shape. -/
structure Accepts (m : MaskSpec) (shape : Shape) : Prop where
  ends : m.begins.length = m.ends.length
  strides : m.ends.length = m.strides.length
  ellipsis : m.OneEllipsis
  taken : m.taken ≤ shape.length
  walks : ∀ i < m.dims, m.takes i = true → m.strides.getD i 0 ≠ 0
  single : ∀ p ∈ (m.binders shape.length).zip shape, ∀ i, p.1 = some i →
    m.shrinkMask.testBit i = true → -(p.2 : Int) ≤ m.begins.getD i 0 ∧ m.begins.getD i 0 < p.2

/-- Entries that are bound to axes suit them exactly when strides and single indices do. -/
theorem allSuit_places (hone : m.OneEllipsis) {shape : Shape} (htaken : m.taken ≤ shape.length) :
    Entry.AllSuit ((m.places shape.length).map m.entryOf) shape ↔
      (∀ i < m.dims, m.takes i = true → m.shrinkMask.testBit i = false →
        m.strides.getD i 0 ≠ 0) ∧
      ∀ p ∈ (m.binders shape.length).zip shape, ∀ i, p.1 = some i →
        m.shrinkMask.testBit i = true →
        -(p.2 : Int) ≤ m.begins.getD i 0 ∧ m.begins.getD i 0 < p.2 := by
  have htakes : ∀ p ∈ (m.binders shape.length).zip shape, ∀ i, p.1 = some i →
      m.takes i = true := by
    intro p hp i hi
    have hmem := (List.of_mem_zip (show (p.1, p.2) ∈ _ from hp)).1
    rw [hi] at hmem
    exact (some_mem_binders.mp hmem).2
  have hsuit : Entry.AllSuit ((m.places shape.length).map m.entryOf) shape ↔
      ∀ p ∈ (m.binders shape.length).zip shape, (m.boundEntry p.1).Suits p.2 := by
    rw [Entry.AllSuit, takers_places (places_proper hone _), binders_places hone, List.zip_map_left,
      List.forall_mem_map]
    rfl
  rw [hsuit]
  constructor
  · intro h
    refine ⟨fun i hi ht hs => ?_, fun p hp i hi hs => ?_⟩
    · have hmem : some i ∈ m.binders shape.length := some_mem_binders.mpr ⟨hi, ht⟩
      rw [← List.map_fst_zip (Nat.le_of_eq (length_binders htaken))] at hmem
      obtain ⟨p, hp, hbinder⟩ := List.mem_map.mp hmem
      have hsuits := h p hp
      rw [hbinder] at hsuits
      exact ((suits_entryAt ht).mp hsuits).2 hs
    · have hsuits := h p hp
      rw [hi] at hsuits
      exact ((suits_entryAt (htakes p hp i hi)).mp hsuits).1 hs
  · intro h p hp
    obtain ⟨hwalks, hsingle⟩ := h
    cases hbinder : p.1 with
    | none => trivial
    | some i =>
      have hmem := (List.of_mem_zip (show (p.1, p.2) ∈ _ from hp)).1
      rw [hbinder] at hmem
      obtain ⟨hi, ht⟩ := some_mem_binders.mp hmem
      exact (suits_entryAt ht).mpr ⟨hsingle p hp i hbinder, hwalks i hi ht⟩

theorem resolve_masks_eq_ok {shape : Shape} {r : Resolution} :
    Resolution.ofValue shape (.masks m) = .ok r ↔ m.Accepts shape ∧
      r = ⟨Entry.slots ((m.places shape.length).map m.entryOf) shape⟩ := by
  have hresolve : Resolution.ofValue shape (.masks m) = .ok r ↔
      ∃ es, m.entries = .ok es ∧ Entry.resolve shape es = .ok r := by
    rw [← except_bind_eq_ok]
    rfl
  rw [hresolve]
  constructor
  · intro h
    obtain ⟨_, hes, h⟩ := h
    obtain ⟨htaken, hall, rfl⟩ := (Entry.resolve_eq_ok (count_ellipsis_le hes)).mp h
    obtain ⟨⟨⟨hends, hstrides⟩, hone⟩, hshrunk, rfl⟩ := entries_eq_ok.mp hes
    rw [taken_entries] at htaken
    rw [spread_places hone, allSuit_places hone htaken] at hall
    rw [spread_places hone]
    refine ⟨⟨hends, hstrides, hone, htaken, fun i hi ht => ?_, hall.2⟩, rfl⟩
    cases hs : m.shrinkMask.testBit i with
    | true => exact hshrunk i hi ht hs
    | false => exact hall.1 i hi ht hs
  · intro h
    obtain ⟨⟨hends, hstrides, hone, htaken, hwalks, hsingle⟩, rfl⟩ := h
    have hes := entries_eq_ok.mpr
      ⟨⟨⟨hends, hstrides⟩, hone⟩, fun i hi ht _ => hwalks i hi ht, rfl⟩
    refine ⟨_, hes, (Entry.resolve_eq_ok (count_ellipsis_le hes)).mpr ?_⟩
    rw [taken_entries, spread_places hone, allSuit_places hone htaken]
    exact ⟨htaken, ⟨fun i hi ht _ => hwalks i hi ht, hsingle⟩, rfl⟩

theorem axes_places {shape : Shape} (h : m.Accepts shape) :
    Resolution.axes ⟨Entry.slots ((m.places shape.length).map m.entryOf) shape⟩ =
      List.zipWith (fun binder extent =>
        ⟨extent, m.intervalAt binder extent, m.droppedAt binder⟩) (m.binders shape.length)
        shape := by
  rw [Resolution.axes, Entry.axes_slots, takers_places (places_proper h.ellipsis _),
    binders_places h.ellipsis, List.zipWith_map_left, ← List.map_uncurry_zip_eq_zipWith,
    ← List.map_uncurry_zip_eq_zipWith]
  refine List.map_congr_left fun p hp => selection_boundEntry fun i hi => ?_
  have hmem := (List.of_mem_zip (show (p.1, p.2) ∈ _ from hp)).1
  rw [hi] at hmem
  obtain ⟨hlt, ht⟩ := some_mem_binders.mp hmem
  exact ⟨ht, h.walks i hlt ht⟩

/-- What a specification resolves to. -/
structure Selects (m : MaskSpec) (shape : Shape) (r : Resolution) : Prop where
  input : r.inputShape = shape
  bound : (m.binders shape.length).length = shape.length
  intervals : r.intervals = List.zipWith m.intervalAt (m.binders shape.length) shape
  dropped : r.dropped = (m.binders shape.length).map m.droppedAt
  processing : r.processingShape = r.intervals.map Interval.size
  /-- A size counts the steps after which the walk is still before `stop`. -/
  sizes : ∀ i ∈ r.intervals, ∀ k : Nat, k < i.size ↔ i.Visits k
  final : r.finalShape = m.extentsFrom (m.places shape.length) r.processingShape

/-- A specification resolves exactly against the shapes that it accepts, binds its entries to the
axes as they stand around the ellipsis, and is otherwise refused as an argument, unless the refusal
has a number in it that cannot be written. -/
theorem resolve_masks (m : MaskSpec) (shape : Shape) :
    ((∃ r, Resolution.ofValue shape (.masks m) = .ok r) ↔ m.Accepts shape) ∧
      (∀ e, Resolution.ofValue shape (.masks m) = .error e →
        (e.kind = if e.isLegible then .argument else .value) ∧
        ((∀ n, m.Told shape n → Text.legible n = true) → e.kind = .argument)) ∧
      ∀ r, Resolution.ofValue shape (.masks m) = .ok r → m.Selects shape r := by
  refine ⟨⟨?_, fun h => ⟨_, resolve_masks_eq_ok.mpr ⟨h, rfl⟩⟩⟩, fun e h => ?_, fun r h => ?_⟩
  · intro h
    obtain ⟨r, h⟩ := h
    exact (resolve_masks_eq_ok.mp h).1
  · exact ⟨(resolve_masks_error h).kind, (resolve_masks_error h).kind_of_legible⟩
  · obtain ⟨hfits, hinput⟩ := Resolution.ofValue_fits h
    obtain ⟨haccepts, rfl⟩ := resolve_masks_eq_ok.mp h
    have haxes := axes_places haccepts
    have hbound := length_binders haccepts.taken
    refine ⟨hinput, hbound, ?_, ?_, ?_, fun i hi k => ?_, ?_⟩
    · rw [Resolution.intervals, haxes, List.map_zipWith]
    · rw [Resolution.dropped, haxes, List.map_zipWith]
      exact List.ext_getElem (by simp [hbound]) fun n hn hn' => by simp
    · rw [Resolution.processingShape, Resolution.intervals, List.map_map]
      rfl
    · obtain ⟨a, ha, rfl⟩ := List.mem_map.mp hi
      exact Interval.lt_size_iff (hfits a ha).interval.step k
    · exact finalShape_places (places_proper haccepts.ellipsis _) shape

/-- A single index, an ellipsis over two axes, a new axis, and every other index from the last. -/
theorem resolve_masks_ellipsis :
    ∃ r, Resolution.ofValue [2, 3, 4, 5] (.masks {
        begins := [-1, 0, 0, 0], ends := [0, 0, 0, 0], strides := [3, 1, 1, -2]
        beginMask := 8, endMask := 8, ellipsisMask := 2, newAxisMask := 4, shrinkMask := 1 }) =
        .ok r ∧
      r.intervals = [⟨1, 2, 1⟩, ⟨0, 3, 1⟩, ⟨0, 4, 1⟩, ⟨4, -1, -2⟩] ∧
      r.finalShape = [3, 4, 1, 3] := by
  refine ⟨_, rfl, ?_⟩
  have h := (resolve_masks _ _).2.2 _ (rfl : Resolution.ofValue [2, 3, 4, 5] (.masks {
    begins := [-1, 0, 0, 0], ends := [0, 0, 0, 0], strides := [3, 1, 1, -2]
    beginMask := 8, endMask := 8, ellipsisMask := 2, newAxisMask := 4, shrinkMask := 1 }) = .ok _)
  exact ⟨h.intervals, h.final⟩

/-- Two ellipses so far apart that their mask cannot be written: the refusal is none of an
argument. -/
theorem resolve_masks_untold :
    let m : MaskSpec :=
      { begins := [0], ends := [0], strides := [1], ellipsisMask := 2 ^ 14285 + 1 }
    ¬m.Accepts [1] ∧ ∃ e, Resolution.ofValue [1] (.masks m) = .error e ∧ e.kind = .value := by
  intro m
  have hseveral : ¬m.ellipsisMask &&& (m.ellipsisMask - 1) = 0 := by decide +kernel
  have hlong : ¬Text.legible m.ellipsisMask = true := by
    rw [Text.legible_iff]
    decide +kernel
  have hvalidate : m.validate = .error (.severalEllipses m.ellipsisMask) := by
    rw [validate, if_pos ⟨rfl, rfl⟩, if_neg hseveral]
  refine ⟨fun h => hseveral (and_pred_eq_zero.mpr h.ellipsis), .severalEllipses m.ellipsisMask, ?_,
    ?_⟩
  · show m.validate >>= _ >>= _ = _
    rw [hvalidate]
    rfl
  · exact if_neg fun h => hlong (List.all_eq_true.mp h _ List.mem_cons_self)

end MaskSpec

end Hyperslab
