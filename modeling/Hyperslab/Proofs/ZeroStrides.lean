import Hyperslab.Proofs.Resolve

/-!
# The number in a complaint about a stride

A zero stride is refused twice: decoding refuses it on a single index and tells the
number of the entry, and resolving refuses it on a range and tells the number of the
axis that the range is bound to.  Some entry has a zero stride in both cases, but the
number told is its own only where the entries before it take one axis each.
-/

namespace Hyperslab

/-- The place of a number among those below `n` that satisfy `p` is the count of those before it. -/
theorem eq_countP_of_getElem?_filter_range {p : Nat → Bool} {n i j : Nat}
    (h : ((List.range n).filter p)[i]? = some j) : i = (List.range j).countP p := by
  induction n with
  | zero => simp at h
  | succ n ih =>
    rw [List.range_succ, List.filter_append] at h
    by_cases hi : i < ((List.range n).filter p).length
    · exact ih (by rwa [List.getElem?_append_left hi] at h)
    · rw [List.getElem?_append_right (Nat.le_of_not_lt hi)] at h
      by_cases hn : p n = true
      · rw [List.filter_cons_of_pos hn, List.filter_nil, List.getElem?_singleton] at h
        split_ifs at h with hzero
        obtain rfl : n = j := Option.some.inj h
        rw [List.countP_eq_length_filter]
        omega
      · rw [List.filter_cons_of_neg hn] at h
        cases h

namespace Entry

/-- What resolving tells about a zero stride is the number of an axis, and a range with that stride
takes the axis. -/
theorem selectFrom_zeroStride {axis i : Nat} {es : List Entry} {dims : Shape}
    (h : selectFrom axis es dims = .error (.zeroStride i)) :
    ∃ n, i = axis + n ∧ ∃ start stop, es[n]? = some (range start stop 0) := by
  induction es generalizing axis dims with
  | nil => cases h
  | cons e es ih =>
    cases dims with
    | nil => cases h
    | cons d dims =>
      rcases except_bind_eq_error.mp h with h | ⟨_, _, h⟩
      · cases e with
        | fixed index =>
          unfold select point at h
          dsimp only at h
          split_ifs at h <;> cases h
        | range start stop step =>
          rw [select] at h
          split_ifs at h with hstep
          obtain rfl : axis = i := by simpa using h
          exact ⟨0, rfl, start, stop, by rw [hstep]; rfl⟩
        | full | newAxis | ellipsis => cases h
      · obtain ⟨n, rfl, hentry⟩ := ih (except_bind_pure_eq_error.mp h)
        exact ⟨n + 1, by omega, hentry⟩

theorem step_of_ofRange {start stop first last : Option Int} {step step' : Int}
    (h : ofRange start stop step = range first last step') : step = step' := by
  unfold ofRange at h
  split at h
  · cases h
  · exact (Entry.range.inj h).2.2

end Entry

namespace MaskSpec

variable {m : MaskSpec}

/-- What decoding tells about a zero stride is the number of a single index with that stride. -/
theorem entriesFrom_zeroStride {start n i : Nat}
    (h : m.entriesFrom start ((List.range' start n).map m.numbersAt) = .error (.zeroStride i)) :
    i < start + n ∧ m.takes i = true ∧ m.shrinkMask.testBit i = true ∧ m.strides.getD i 0 = 0 := by
  induction n generalizing start with
  | zero => cases h
  | succ n ih =>
    rw [List.range'_succ, List.map_cons] at h
    rcases except_bind_eq_error.mp h with h | ⟨_, _, h⟩
    · unfold entry at h
      split_ifs at h with hellipsis hnew hshrink hstride
      obtain rfl : start = i := by simpa using h
      have htakes : m.takes start = true := by simp [takes, hellipsis, hnew]
      exact ⟨by omega, htakes, hshrink, hstride⟩
    · obtain ⟨hi, h⟩ := ih (except_bind_pure_eq_error.mp h)
      exact ⟨by omega, h⟩

/-- The number of the axis that entry `j` takes: the entries before it take one axis each, unless
they are new axes, and an ellipsis before it takes all that are left over. -/
def axisNumber (m : MaskSpec) (rank j : Nat) : Nat :=
  (List.range j).countP m.takes + if m.pivot < j then rank - m.taken else 0

/-- Behind entries that take one axis each, an entry and its axis have the same number. -/
theorem axisNumber_eq_self {j : Nat} (hj : j < m.dims) (h : ∀ k < j, m.takes k = true)
    (rank : Nat) : m.axisNumber rank j = j := by
  have hcount : (List.range j).countP m.takes = j := by
    rw [List.countP_eq_length.mpr fun k hk => h k (List.mem_range.mp hk), List.length_range]
  have hpivot : ¬m.pivot < j := by
    intro hlt
    rcases m.pivot_cases with ⟨hdims, _⟩ | ⟨_, hellipsis, _⟩
    · omega
    · have htakes := h _ hlt
      rw [takes, hellipsis] at htakes
      cases htakes
  rw [axisNumber, hcount, if_neg hpivot, Nat.add_zero]

theorem eq_axisNumber {rank i j : Nat} (h : (m.binders rank)[i]? = some (some j)) :
    i = m.axisNumber rank j := by
  have hsome : ∀ {l : List Nat} {n : Nat}, (l.map some)[n]? = some (some j) → l[n]? = some j := by
    intro l n h
    rw [List.getElem?_map, Option.map_eq_some_iff] at h
    obtain ⟨_, h, hj⟩ := h
    rw [h, Option.some.inj hj]
  rw [binders, List.append_assoc, List.getElem?_append, List.getElem?_append] at h
  simp only [List.length_map, List.length_replicate] at h
  unfold axisNumber
  split_ifs at h with hfront hspanned
  · -- The entry stands before the ellipsis.
    have hentry := hsome h
    have hlt : j < m.pivot :=
      List.mem_range.mp (List.mem_of_mem_filter (List.mem_of_getElem? hentry))
    have hrange : ((List.range m.dims).filter m.takes)[i]? = some j := by
      rw [filter_takes, List.getElem?_append_left hfront, hentry]
    rw [if_neg (by omega), ← eq_countP_of_getElem?_filter_range hrange, Nat.add_zero]
  · rw [List.getElem?_replicate_of_lt hspanned] at h
    cases h
  · -- It stands behind the ellipsis, which takes the axes in between.
    have hentry := hsome h
    have hlt : m.pivot < j :=
      (List.mem_range'_1.mp (List.mem_of_mem_filter (List.mem_of_getElem? hentry))).1
    have hcount : i - (rank - m.taken) = (List.range j).countP m.takes := by
      refine eq_countP_of_getElem?_filter_range (n := m.dims) ?_
      rw [filter_takes, List.getElem?_append_right (by omega), ← hentry]
      congr 1
      omega
    rw [if_pos (by omega)]
    omega

/-- The entry that binds an axis has a zero stride if resolving says so of the axis. -/
theorem boundEntry_zero {b : Option Nat} {start stop : Option Int}
    (hb : ∀ j, b = some j → m.takes j = true) (h : m.boundEntry b = .range start stop 0) :
    ∃ j, b = some j ∧ m.shrinkMask.testBit j = false ∧ m.strides.getD j 0 = 0 := by
  cases b with
  | none => cases h
  | some j =>
    have htakes := hb j rfl
    refine ⟨j, rfl, ?_⟩
    cases hs : m.shrinkMask.testBit j with
    | true =>
      rw [boundEntry, entryAt_shrink htakes hs] at h
      cases h
    | false =>
      rw [boundEntry, entryAt_plain htakes hs] at h
      exact ⟨rfl, Entry.step_of_ofRange h⟩

/-- A complaint about a zero stride arises from an entry with one, and gives its number if it is a
single index, else the number of the axis it takes. -/
theorem resolve_zeroStride {shape : Shape} {i : Nat}
    (h : Resolution.ofValue shape (.masks m) = .error (.zeroStride i)) :
    ∃ j < m.dims, m.takes j = true ∧ m.strides[j]? = some 0 ∧
      i = if m.shrinkMask.testBit j then j else m.axisNumber shape.length j := by
  have h : (m.entries >>= Entry.resolve shape) = .error (.zeroStride i) := h
  have hzero : ∀ {j}, m.begins.length = m.ends.length → m.ends.length = m.strides.length →
      j < m.dims → m.strides.getD j 0 = 0 → m.strides[j]? = some 0 := by
    intro j hends hstrides hj hzero
    have hlt : j < m.strides.length := by unfold dims at hj; omega
    rw [List.getD_eq_getElem?_getD, List.getElem?_eq_getElem hlt, Option.getD_some] at hzero
    rw [List.getElem?_eq_getElem hlt, hzero]
  rcases except_bind_eq_error.mp h with h | ⟨es, hes, h⟩
  · rcases except_bind_eq_error.mp h with h | ⟨_, hvalid, h⟩
    · unfold validate at h
      split_ifs at h <;> cases h
    · obtain ⟨⟨hends, hstrides⟩, _⟩ := validate_eq_ok.mp hvalid
      rw [zip_numbers hends hstrides] at h
      obtain ⟨hlt, htakes, hshrink, hstride⟩ := entriesFrom_zeroStride h
      have hi : i < m.dims := by omega
      exact ⟨i, hi, htakes, hzero hends hstrides hi hstride, (if_pos hshrink).symm⟩
  · obtain ⟨⟨⟨hends, hstrides⟩, hone⟩, _, rfl⟩ := entries_eq_ok.mp hes
    have h := (Entry.resolve_error (count_ellipsis_le hes) h).resolve_left fun he => nomatch he
    obtain ⟨n, hn, start, stop, hentry⟩ := Entry.selectFrom_zeroStride h
    obtain rfl : i = n := by omega
    rw [spread_places hone, takers_places (places_proper hone _), binders_places hone,
      List.getElem?_map, Option.map_eq_some_iff] at hentry
    obtain ⟨b, hbinder, hentry⟩ := hentry
    have hbound : ∀ j, b = some j → j < m.dims ∧ m.takes j = true := by
      rintro j rfl
      exact some_mem_binders.mp (List.mem_of_getElem? hbinder)
    obtain ⟨j, rfl, hshrink, hstride⟩ := boundEntry_zero (fun j hj => (hbound j hj).2) hentry
    obtain ⟨hj, htakes⟩ := hbound j rfl
    refine ⟨j, hj, htakes, hzero hends hstrides hj hstride, ?_⟩
    rw [if_neg (by rw [hshrink]; decide)]
    exact eq_axisNumber hbinder

/-- A complaint about a zero stride arises from an entry with one.  The number told is that of the
entry, or of the axis it takes, and these are the same if every entry before it takes one axis. -/
theorem zeroStride_blames {shape : Shape} {i : Nat}
    (h : Resolution.ofValue shape (.masks m) = .error (.zeroStride i)) :
    ∃ j, m.takes j = true ∧ m.strides[j]? = some 0 ∧
      (i = if m.shrinkMask.testBit j then j else m.axisNumber shape.length j) ∧
      ((∀ k < j, m.takes k = true) → m.strides[i]? = some 0) := by
  obtain ⟨j, hj, htakes, hzero, hnumber⟩ := resolve_zeroStride h
  refine ⟨j, htakes, hzero, hnumber, fun hall => ?_⟩
  have hself : i = j := by
    rw [hnumber, axisNumber_eq_self hj hall]
    exact ite_self j
  rw [hself]
  exact hzero

end MaskSpec

namespace Sample

/-- A range behind a new axis. -/
def behindNewAxis : MaskSpec :=
  { begins := [0, 0], ends := [0, 2], strides := [1, 0], newAxisMask := 1 }

/-- The same range behind an ellipsis. -/
def behindEllipsis : MaskSpec :=
  { begins := [0, 0], ends := [0, 2], strides := [1, 0], ellipsisMask := 1 }

/-- The complaint gives the number of a stride that is not zero, or of none. -/
theorem zeroStride_misses :
    (Resolution.ofValue [2, 3] (.masks behindNewAxis) = .error (.zeroStride 0) ∧
      behindNewAxis.strides[0]? = some 1) ∧
    Resolution.ofValue [2, 3, 4] (.masks behindEllipsis) = .error (.zeroStride 2) ∧
      behindEllipsis.strides[2]? = none :=
  ⟨⟨rfl, rfl⟩, rfl, rfl⟩

/-- A range behind a new axis and a single index: entry 2, and it takes axis 1. -/
def third : MaskSpec :=
  { begins := [0, 1, 0], ends := [0, 2, 3], strides := [1, 1, 0], newAxisMask := 1, shrinkMask := 2 }

theorem zeroStride_blames_third :
    Resolution.ofValue [4, 5] (.masks third) = .error (.zeroStride 1) ∧
      ∃ j, third.takes j = true ∧ third.strides[j]? = some 0 ∧
        1 = if third.shrinkMask.testBit j then j else third.axisNumber 2 j := by
  have h : Resolution.ofValue [4, 5] (.masks third) = .error (.zeroStride 1) := rfl
  obtain ⟨j, htakes, hzero, hnumber, _⟩ := MaskSpec.zeroStride_blames h
  exact ⟨h, j, htakes, hzero, hnumber⟩

end Sample

end Hyperslab
