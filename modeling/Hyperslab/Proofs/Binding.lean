import Hyperslab.Proofs.Masks

/-!
# How entries are bound to axes

The entries before the ellipsis bind the leading axes in order, and those after it
bind the trailing axes; every axis in between is whole.  `spread_places` shows that
this is the binding of the entries with the ellipsis expanded in place.
-/

namespace Hyperslab

/-! ## Bounds as they are written -/

namespace Interval

/-- A bound that is given: a negative one counts from the end, and one outside of the axis is cut
to the place next to it where a walk can start or end. -/
def bounded (extent : Nat) (step i : Int) : Int :=
  if i < 0 then
    if i + extent < 0 then if step < 0 then -1 else 0 else i + extent
  else if extent ≤ i then if step < 0 then extent - 1 else extent else i

/-- The interval of a start, a stop and a step, any of which but the step may be missing. -/
def indices (extent : Nat) (start stop : Option Int) (step : Int) : Interval where
  start := match start with
    | some i => bounded extent step i
    | none => if step < 0 then extent - 1 else 0
  stop := match stop with
    | some i => bounded extent step i
    | none => if step < 0 then -1 else extent
  step := step

theorem clamp_some {extent : Nat} {step : Int} (h : step ≠ 0) (b : Bound) (i : Int) :
    clamp extent step b (some i) = bounded extent step i := by
  unfold clamp limits bounded
  split_ifs <;> dsimp only <;> omega

theorem ofBounds_eq_indices {extent : Nat} {start stop : Option Int} {step : Int} (h : step ≠ 0) :
    ofBounds extent start stop step = indices extent start stop step := by
  unfold ofBounds indices
  rw [Interval.mk.injEq]
  refine ⟨?_, ?_, rfl⟩
  · cases start with
    | some i => exact clamp_some h .first i
    | none =>
      unfold clamp limits
      split_ifs <;> simp_all <;> omega
  · cases stop with
    | some i => exact clamp_some h .last i
    | none =>
      unfold clamp limits
      split_ifs <;> simp_all <;> omega

end Interval

/-! ## Places -/

/-- What stands at a place of the entries when the ellipsis has been expanded. -/
inductive Place where
  | inserted
  /-- An axis that the ellipsis takes. -/
  | spanned
  /-- An axis that the entry with this number takes. -/
  | bound (i : Nat)

/-- The entry that binds the axis at a place, if there is an axis. -/
def Place.binder? : Place → Option (Option Nat)
  | inserted => none
  | spanned => some none
  | bound i => some (some i)

namespace MaskSpec

variable {m : MaskSpec}

/-- The number of the ellipsis.  Without one, it stands after the last entry. -/
def pivot (m : MaskSpec) : Nat :=
  ((List.range m.dims).find? fun i => m.ellipsisMask.testBit i).getD m.dims

/-- The numbers of the entries before the ellipsis. -/
def front (m : MaskSpec) : List Nat := List.range m.pivot

/-- The numbers of the entries after the ellipsis. -/
def back (m : MaskSpec) : List Nat := List.range' (m.pivot + 1) (m.dims - (m.pivot + 1))

/-- The number of axes that the entries take. -/
def taken (m : MaskSpec) : Nat := (List.range m.dims).countP m.takes

/-- The entry that binds each axis: the entries before the ellipsis bind the leading axes and those
after it the trailing ones, both in order, and there is none for an axis in between. -/
def binders (m : MaskSpec) (rank : Nat) : List (Option Nat) :=
  (m.front.filter m.takes).map some ++ List.replicate (rank - m.taken) none ++
    (m.back.filter m.takes).map some

def place (m : MaskSpec) (i : Nat) : Place :=
  if m.newAxisMask.testBit i then .inserted else .bound i

/-- The entries in order, with the ellipsis expanded. -/
def places (m : MaskSpec) (rank : Nat) : List Place :=
  m.front.map m.place ++ List.replicate (rank - m.taken) .spanned ++ m.back.map m.place

def entryOf (m : MaskSpec) : Place → Entry
  | .inserted => .newAxis
  | .spanned => .full
  | .bound i => m.entryAt i

theorem takesAxis_entryAt (m : MaskSpec) (i : Nat) : (m.entryAt i).takesAxis = m.takes i := by
  unfold entryAt decoded takes Entry.ofRange
  split_ifs <;> simp_all [Entry.takesAxis]

theorem taken_entries (m : MaskSpec) :
    Entry.taken ((List.range m.dims).map m.entryAt) = m.taken := by
  rw [Entry.taken, List.countP_map, taken]
  exact List.countP_congr fun i _ => by rw [Function.comp_apply, takesAxis_entryAt]

theorem entryOf_place {i : Nat} (h : m.ellipsisMask.testBit i = false) :
    m.entryOf (m.place i) = m.entryAt i := by
  unfold place
  by_cases hnew : m.newAxisMask.testBit i = true
  · rw [if_pos hnew, entryOf, entryAt, decoded, if_neg (by rw [h]; decide), if_pos hnew]
  · rw [if_neg hnew, entryOf]

/-- The entries before the ellipsis, the ellipsis, and those after it. -/
theorem pivot_cases (m : MaskSpec) :
    (m.pivot = m.dims ∧ ∀ i < m.dims, m.ellipsisMask.testBit i = false) ∨
      (m.pivot < m.dims ∧ m.ellipsisMask.testBit m.pivot = true ∧
        List.range m.dims = m.front ++ m.pivot :: m.back) := by
  unfold pivot
  cases hfind : (List.range m.dims).find? fun i => m.ellipsisMask.testBit i with
  | none =>
    refine .inl ⟨rfl, fun i hi => ?_⟩
    exact Bool.eq_false_iff.mpr (List.find?_eq_none.mp hfind i (List.mem_range.mpr hi))
  | some p =>
    have hp := List.mem_range.mp (List.mem_of_find?_eq_some hfind)
    refine .inr ⟨hp, List.find?_some hfind, ?_⟩
    have hpivot : m.pivot = p := by rw [pivot, hfind, Option.getD_some]
    obtain ⟨k, hk⟩ := Nat.exists_eq_add_of_lt hp
    rw [front, back, hpivot, Option.getD_some, hk, Nat.add_assoc, Nat.add_sub_add_left,
      Nat.add_sub_cancel, ← List.range'_succ, List.range_eq_range', List.range_eq_range']
    have happend : List.range' 0 p ++ List.range' (0 + 1 * p) (k + 1) =
        List.range' 0 (p + (k + 1)) := List.range'_append
    rw [Nat.zero_add, Nat.one_mul] at happend
    exact happend.symm

theorem front_back_lt {i : Nat} (h : i ∈ m.front ++ m.back) : i < m.dims ∧ i ≠ m.pivot := by
  have hle : m.pivot ≤ m.dims := by
    rcases m.pivot_cases with ⟨h, _⟩ | ⟨h, _⟩ <;> omega
  rcases List.mem_append.mp h with h | h
  · have := List.mem_range.mp h
    omega
  · have := List.mem_range'_1.mp h
    omega

/-- No entry apart from the one at the pivot is an ellipsis. -/
theorem ellipsis_front_back (hone : m.OneEllipsis) {i : Nat} (h : i ∈ m.front ++ m.back) :
    m.ellipsisMask.testBit i = false := by
  obtain ⟨hlt, hne⟩ := front_back_lt h
  rcases m.pivot_cases with ⟨_, hnone⟩ | ⟨_, hpivot, _⟩
  · exact hnone i hlt
  · exact Bool.eq_false_iff.mpr fun hbit => hne (hone _ _ hbit hpivot)

theorem ellipsis_notMem_entries {l : List Nat} (h : ∀ i ∈ l, m.ellipsisMask.testBit i = false) :
    .ellipsis ∉ l.map m.entryAt := by
  intro hmem
  obtain ⟨i, hi, he⟩ := List.mem_map.mp hmem
  rw [entryAt_eq_ellipsis, h i hi] at he
  exact Bool.false_ne_true he

theorem entries_places {l : List Nat} (h : ∀ i ∈ l, m.ellipsisMask.testBit i = false) :
    l.map m.entryAt = (l.map m.place).map m.entryOf := by
  rw [List.map_map]
  exact List.map_congr_left fun i hi => (entryOf_place (h i hi)).symm

theorem closed_entries (m : MaskSpec) : Entry.closed ((List.range m.dims).map m.entryAt) =
    m.front.map m.entryAt ++ .ellipsis :: m.back.map m.entryAt := by
  unfold Entry.closed
  rcases m.pivot_cases with ⟨hpivot, hnone⟩ | ⟨hlt, hpivot, hsplit⟩
  · have habsent : Entry.ellipsis ∉ (List.range m.dims).map m.entryAt :=
      ellipsis_notMem_entries fun i hi => hnone i (List.mem_range.mp hi)
    rw [if_neg (fun hc => habsent (List.contains_iff_mem.mp hc)), front, back, hpivot,
      Nat.sub_eq_zero_of_le (Nat.le_succ _)]
    rfl
  · have hpresent : Entry.ellipsis ∈ (List.range m.dims).map m.entryAt :=
      List.mem_map.mpr ⟨m.pivot, List.mem_range.mpr hlt, entryAt_eq_ellipsis.mpr hpivot⟩
    rw [if_pos (List.contains_iff_mem.mpr hpresent), hsplit, List.map_append, List.map_cons,
      entryAt_eq_ellipsis.mpr hpivot]

/-- Expanding the ellipsis gives the entries at the places. -/
theorem spread_places (hone : m.OneEllipsis) (rank : Nat) :
    Entry.spread rank ((List.range m.dims).map m.entryAt) = (m.places rank).map m.entryOf := by
  have hfront : ∀ i ∈ m.front, m.ellipsisMask.testBit i = false := fun i hi =>
    ellipsis_front_back hone (List.mem_append_left _ hi)
  have hback : ∀ i ∈ m.back, m.ellipsisMask.testBit i = false := fun i hi =>
    ellipsis_front_back hone (List.mem_append_right _ hi)
  have hspanned : List.replicate (rank - m.taken) Entry.full =
      (List.replicate (rank - m.taken) Place.spanned).map m.entryOf := by
    rw [List.map_replicate]
    rfl
  rw [Entry.spread_eq m.closed_entries (ellipsis_notMem_entries hfront)
    (ellipsis_notMem_entries hback), taken_entries, entries_places hfront, entries_places hback,
    hspanned, places, List.map_append, List.map_append, List.append_assoc]

theorem filterMap_place {l : List Nat} (h : ∀ i ∈ l, m.ellipsisMask.testBit i = false) :
    (l.map m.place).filterMap Place.binder? = (l.filter m.takes).map some := by
  induction l with
  | nil => rfl
  | cons i l ih =>
    obtain ⟨hi, hl⟩ := List.forall_mem_cons.mp h
    rw [List.map_cons]
    by_cases hnew : m.newAxisMask.testBit i = true
    · have htakes : ¬m.takes i = true := by
        rw [takes, hnew, Bool.not_true, Bool.and_false]
        exact Bool.false_ne_true
      rw [List.filter_cons_of_neg htakes, ← ih hl, place, if_pos hnew]
      rfl
    · have htakes : m.takes i = true := by
        rw [takes, hi, Bool.not_false, Bool.true_and, Bool.not_eq_true']
        exact Bool.eq_false_iff.mpr hnew
      rw [List.filter_cons_of_pos htakes, List.map_cons, ← ih hl, place, if_neg hnew]
      rfl

theorem binders_places (hone : m.OneEllipsis) (rank : Nat) :
    (m.places rank).filterMap Place.binder? = m.binders rank := by
  rw [places, List.filterMap_append, List.filterMap_append,
    filterMap_place fun i hi => ellipsis_front_back hone (List.mem_append_left _ hi),
    filterMap_place fun i hi => ellipsis_front_back hone (List.mem_append_right _ hi),
    List.filterMap_replicate_of_some (show Place.binder? .spanned = some none from rfl), binders]

theorem filter_takes (m : MaskSpec) : (List.range m.dims).filter m.takes =
    m.front.filter m.takes ++ m.back.filter m.takes := by
  rcases m.pivot_cases with ⟨hpivot, _⟩ | ⟨_, hpivot, hsplit⟩
  · rw [front, back, hpivot, Nat.sub_eq_zero_of_le (Nat.le_succ _)]
    exact (List.append_nil _).symm
  · have htakes : ¬m.takes m.pivot = true := by
      rw [takes, hpivot]
      exact Bool.false_ne_true
    rw [hsplit, List.filter_append, List.filter_cons_of_neg htakes]

/-- Every axis has its place among the binders. -/
theorem length_binders {rank : Nat} (h : m.taken ≤ rank) : (m.binders rank).length = rank := by
  have htaken : m.taken = (m.front.filter m.takes).length + (m.back.filter m.takes).length := by
    rw [taken, List.countP_eq_length_filter, filter_takes, List.length_append]
  rw [binders, List.length_append, List.length_append, List.length_map, List.length_map,
    List.length_replicate]
  omega

/-- Exactly the entries that take an axis are bound to one. -/
theorem some_mem_binders {rank i : Nat} :
    some i ∈ m.binders rank ↔ i < m.dims ∧ m.takes i = true := by
  have hmem : i ∈ (List.range m.dims).filter m.takes ↔ i < m.dims ∧ m.takes i = true := by
    rw [List.mem_filter, List.mem_range]
  rw [← hmem, filter_takes, binders]
  simp

end MaskSpec

end Hyperslab
