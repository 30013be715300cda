import Hyperslab.Proofs.Expansion
import Hyperslab.Proofs.Walks

/-!
# What entries select

Resolving either stops at a fault or gives the selection that each entry makes on
the axis it is bound to.  `Entry.slots` is that selection without the faults, and
`resolve_eq_ok` says exactly when there is none.
-/

namespace Hyperslab

/-- The interval suits the axis, and one index is taken from a dropped axis. -/
structure AxisSelection.Fits (a : AxisSelection) : Prop where
  interval : a.interval.Fits a.extent
  dropped : a.dropped = true → a.size = 1

/-- Every axis has an interval that suits it. -/
def Resolution.Fits (r : Resolution) : Prop := ∀ a ∈ r.axes, a.Fits

namespace Entry

/-! ## A single entry -/

/-- What an entry selects on an axis. -/
def selection (extent : Nat) : Entry → AxisSelection
  | fixed i => ⟨extent, .single (if i < 0 then extent + i else i), true⟩
  | range start stop step => ⟨extent, .ofBounds extent start stop step, false⟩
  | full | newAxis | ellipsis => ⟨extent, .whole extent, false⟩

/-- Whether an entry can be bound to an axis. -/
def Suits (extent : Nat) : Entry → Prop
  | fixed i => -extent ≤ i ∧ i < extent
  | range _ _ step => step ≠ 0
  | full | newAxis | ellipsis => True

theorem extent_selection (extent : Nat) (e : Entry) : (e.selection extent).extent = extent := by
  cases e <;> rfl

theorem wrapped_mem {extent : Nat} {i : Int} (h : (fixed i).Suits extent) :
    0 ≤ (if i < 0 then extent + i else i) ∧ (if i < 0 then extent + i else i) < (extent : Int) := by
  obtain ⟨hlow, hhigh⟩ := h
  split <;> omega

theorem selection_fits {extent : Nat} {e : Entry} (h : e.Suits extent) :
    (e.selection extent).Fits := by
  cases e with
  | fixed i =>
    obtain ⟨hlow, hhigh⟩ := wrapped_mem h
    exact ⟨Interval.single_fits hlow hhigh, fun _ => Interval.size_single _⟩
  | range start stop step => exact ⟨Interval.ofBounds_fits h, fun hd => nomatch hd⟩
  | full | newAxis | ellipsis => exact ⟨Interval.whole_fits extent, fun hd => nomatch hd⟩

theorem point_eq_ok {axis extent : Nat} {i : Int} {a : AxisSelection} :
    point axis extent i = .ok a ↔ (fixed i).Suits extent ∧ a = (fixed i).selection extent := by
  unfold point
  by_cases hi : i < 0
  · simp only [if_pos hi, Suits, selection]
    by_cases h : 0 ≤ extent + i ∧ extent + i < extent
    · rw [if_pos h, Except.ok.injEq]
      exact ⟨fun he => ⟨by omega, he.symm⟩, fun he => he.2.symm⟩
    · rw [if_neg h]
      refine ⟨fun he => ?_, fun he => absurd he.1 (by omega)⟩
      cases he
  · simp only [if_neg hi, Suits, selection]
    by_cases h : 0 ≤ i ∧ i < extent
    · rw [if_pos h, Except.ok.injEq]
      exact ⟨fun he => ⟨by omega, he.symm⟩, fun he => he.2.symm⟩
    · rw [if_neg h]
      refine ⟨fun he => ?_, fun he => absurd he.1 (by omega)⟩
      cases he

/-! ## Entries in a row -/

/-- What entries select, when each one that takes an axis takes the next one. -/
def slots : List Entry → Shape → List Slot
  | [], _ => []
  | newAxis :: es, dims => .inserted :: slots es dims
  | ellipsis :: es, dims => slots es dims
  | _ :: _, [] => []
  | e :: es, d :: dims => .axis (e.selection d) :: slots es dims

theorem slots_cons {e : Entry} (he : e.takesAxis = true) (es : List Entry) (d : Nat)
    (dims : Shape) : slots (e :: es) (d :: dims) = .axis (e.selection d) :: slots es dims := by
  cases e with
  | full | fixed _ | range _ _ _ => rfl
  | newAxis | ellipsis => cases he

theorem slots_nil {e : Entry} (he : e.takesAxis = true) (es : List Entry) :
    slots (e :: es) [] = [] := by
  cases e with
  | full | fixed _ | range _ _ _ => rfl
  | newAxis | ellipsis => cases he

/-- Every entry can be bound to the axis that it takes. -/
def AllSuit (es : List Entry) (dims : Shape) : Prop :=
  ∀ p ∈ (takers es).zip dims, p.1.Suits p.2

theorem select_eq_ok {axis extent : Nat} {e : Entry} {a : AxisSelection} :
    e.select axis extent = .ok a ↔ e.Suits extent ∧ a = e.selection extent := by
  cases e with
  | fixed i => exact point_eq_ok
  | range start stop step =>
    rw [select]
    by_cases h : step = 0
    · rw [if_pos h]
      refine ⟨fun he => ?_, fun he => absurd h he.1⟩
      cases he
    · rw [if_neg h, Except.ok.injEq]
      exact ⟨fun he => ⟨h, he.symm⟩, fun he => he.2.symm⟩
  | full | newAxis | ellipsis =>
    show Except.ok _ = _ ↔ _
    rw [Except.ok.injEq]
    exact ⟨fun he => ⟨trivial, he.symm⟩, fun he => he.2.symm⟩

/-- The entries of axes resolve if each suits its own. -/
theorem selectFrom_eq_ok {axis : Nat} {es : List Entry} {dims : Shape} {out : List AxisSelection} :
    selectFrom axis es dims = .ok out ↔ (∀ p ∈ es.zip dims, p.1.Suits p.2) ∧
      List.zipWith (fun e d => e.selection d) es dims = out := by
  induction es generalizing axis dims out with
  | nil => simp [selectFrom]
  | cons e es ih =>
    cases dims with
    | nil => simp [selectFrom]
    | cons d dims =>
      simp only [selectFrom, except_bind_eq_ok, except_pure_eq_ok, select_eq_ok, List.zip_cons_cons,
        List.forall_mem_cons, List.zipWith_cons_cons]
      constructor
      · intro h
        obtain ⟨_, ⟨hs, rfl⟩, _, hrest, rfl⟩ := h
        obtain ⟨hall, rfl⟩ := ih.mp hrest
        exact ⟨⟨hs, hall⟩, rfl⟩
      · intro h
        obtain ⟨⟨hs, hall⟩, rfl⟩ := h
        exact ⟨_, ⟨hs, rfl⟩, _, ih.mpr ⟨hall, rfl⟩, rfl⟩

/-- The places of entries, when the axes that they take have been resolved. -/
theorem filterMap_gathered {es : List Entry} {dims : Shape} (before : List AxisSelection)
    (h : taken es ≤ dims.length) : (gathered before.length es).filterMap (Gather.slot?
      (before ++ List.zipWith (fun e d => e.selection d) (takers es) dims)) = slots es dims := by
  induction es generalizing before dims with
  | nil => rfl
  | cons e es ih =>
    by_cases he : e.takesAxis = true
    · rw [taken_cons he] at h
      obtain ⟨d, dims, rfl⟩ :=
        List.exists_cons_of_length_pos (Nat.lt_of_lt_of_le (Nat.succ_pos _) h)
      have hslot : ∀ rest, Gather.slot? (before ++ e.selection d :: rest) (.axis before.length) =
          some (.axis (e.selection d)) := fun rest => by
        rw [Gather.slot?, List.getElem?_append_right (Nat.le_refl _), Nat.sub_self]
        rfl
      have hrest := ih (before ++ [e.selection d]) (Nat.le_of_succ_le_succ h)
      rw [List.length_append, List.length_singleton, List.append_assoc] at hrest
      rw [gathered_cons he, slots_cons he, takers, List.filter_cons_of_pos he,
        List.zipWith_cons_cons, List.filterMap_cons_some (hslot _), ← hrest]
      rfl
    · have he' : e.takesAxis = false := Bool.eq_false_iff.mpr he
      rw [taken_skip he'] at h
      rw [takers, List.filter_cons_of_neg he]
      cases e with
      | newAxis => exact congrArg (Slot.inserted :: ·) (ih before h)
      | ellipsis => exact ih before h
      | full | fixed _ | range _ _ _ => cases he'

theorem axes_slots (es : List Entry) (dims : Shape) :
    (slots es dims).filterMap Slot.axis? =
      List.zipWith (fun e d => e.selection d) (takers es) dims := by
  induction es generalizing dims with
  | nil => rfl
  | cons e es ih =>
    by_cases he : e.takesAxis = true
    · rw [takers, List.filter_cons_of_pos he]
      cases dims with
      | nil =>
        cases e with
        | full | fixed _ | range _ _ _ => rfl
        | newAxis | ellipsis => cases he
      | cons d dims =>
        rw [slots_cons he, List.filterMap_cons, ih]
        rfl
    · rw [takers, List.filter_cons_of_neg he]
      cases e with
      | newAxis | ellipsis => exact ih dims
      | full | fixed _ | range _ _ _ => exact absurd rfl he

/-! ## Entries against a shape -/

theorem resolve_of_lt {shape : Shape} {es : List Entry} (hone : es.count ellipsis ≤ 1)
    (h : shape.length < taken es) : resolve shape es = .error (.tooManyEntries shape.length) := by
  rw [resolve, Dense.ofEntries_eq hone, if_neg (Nat.not_le.mpr h)]
  rfl

/-- Resolving selects on each axis what the entry that takes it asks for, when the ellipsis has been
expanded. -/
theorem resolve_of_le {shape : Shape} {es : List Entry} (hone : es.count ellipsis ≤ 1)
    (h : taken es ≤ shape.length) : resolve shape es = do
      let axes ← selectFrom 0 (takers (spread shape.length es)) shape
      return ⟨(gathered 0 (spread shape.length es)).filterMap (Gather.slot? axes)⟩ := by
  rw [resolve, Dense.ofEntries_eq hone, if_pos h]
  show (selectFrom 0 (takers _ ++ List.replicate _ full) shape >>= fun axes => pure _) = _
  rw [taken_spread hone h, Nat.sub_self, List.replicate_zero, List.append_nil]
  rfl

/-- Resolving stops where there are not enough axes, or at an entry that does not suit its axis. -/
theorem resolve_error {shape : Shape} {es : List Entry} {f : Fault} (hone : es.count ellipsis ≤ 1)
    (h : resolve shape es = .error f) : f = .tooManyEntries shape.length ∨
      selectFrom 0 (takers (spread shape.length es)) shape = .error f := by
  by_cases htaken : taken es ≤ shape.length
  · rw [resolve_of_le hone htaken] at h
    exact .inr (except_bind_pure_eq_error.mp h)
  · rw [resolve_of_lt hone (Nat.not_le.mp htaken)] at h
    exact .inl (Except.error.inj h).symm

/-- When entries resolve, and what they come to.  With the ellipsis expanded they take all axes. -/
theorem resolve_eq_ok {shape : Shape} {es : List Entry} {r : Resolution}
    (hone : es.count ellipsis ≤ 1) : resolve shape es = .ok r ↔ taken es ≤ shape.length ∧
      AllSuit (spread shape.length es) shape ∧ r = ⟨slots (spread shape.length es) shape⟩ := by
  by_cases h : taken es ≤ shape.length
  · have hslots := filterMap_gathered [] (Nat.le_of_eq (taken_spread hone h))
    rw [resolve_of_le hone h]
    simp only [except_bind_eq_ok, except_pure_eq_ok, selectFrom_eq_ok]
    constructor
    · intro hr
      obtain ⟨_, ⟨hall, rfl⟩, rfl⟩ := hr
      exact ⟨h, hall, congrArg Resolution.mk hslots⟩
    · intro hr
      obtain ⟨_, hall, rfl⟩ := hr
      exact ⟨_, ⟨hall, rfl⟩, congrArg Resolution.mk hslots⟩
  · rw [resolve_of_lt hone (Nat.not_le.mp h)]
    refine ⟨fun he => ?_, fun he => absurd he.1 h⟩
    cases he

end Entry

/-- The axes of a resolved selection are those of the shape, with intervals that suit them. -/
theorem Entry.resolve_fits {shape : Shape} {es : List Entry} {r : Resolution}
    (hone : es.count .ellipsis ≤ 1) (h : Entry.resolve shape es = .ok r) :
    r.Fits ∧ r.inputShape = shape := by
  obtain ⟨hle, hall, rfl⟩ := (Entry.resolve_eq_ok hone).mp h
  have htaken := Entry.taken_spread hone hle
  generalize Entry.spread shape.length es = es at *
  have haxes : Resolution.axes ⟨Entry.slots es shape⟩ =
      List.zipWith (fun e d => e.selection d) (Entry.takers es) shape := Entry.axes_slots es shape
  constructor
  · intro a ha
    rw [haxes, ← List.map_uncurry_zip_eq_zipWith] at ha
    obtain ⟨p, hp, rfl⟩ := List.mem_map.mp ha
    exact Entry.selection_fits (hall p hp)
  · rw [Resolution.inputShape, haxes, List.map_zipWith]
    simp only [Entry.extent_selection]
    rw [Entry.taken_eq] at htaken
    exact List.ext_getElem (by simp [htaken]) fun n hn hn' => by simp

end Hyperslab
