import Hyperslab.Proofs.Slots
import Hyperslab.Selection
import Mathlib.Data.List.NodupEquivFin

/-!
# Decoded masks

`entryAt` is what the masks and the numbers at one position mean, without the faults.
A specification decodes exactly when its lists have one length, one ellipsis bit at
most is set, and no single index has a zero stride.
-/

namespace Hyperslab

/-- Clearing the lowest set bit leaves nothing exactly when no two bits are set. -/
theorem and_pred_eq_zero {n : Nat} :
    n &&& (n - 1) = 0 ↔ ∀ i j, n.testBit i = true → n.testBit j = true → i = j := by
  by_cases hn : n = 0
  · subst hn
    simp
  rw [Nat.and_sub_one_eq_zero_iff_isPowerOfTwo hn]
  constructor
  · intro h i j hi hj
    obtain ⟨k, rfl⟩ := h
    rw [Nat.testBit_two_pow, decide_eq_true_eq] at hi hj
    exact hi.symm.trans hj
  · intro h
    refine ⟨n.log2, Nat.eq_of_testBit_eq fun i => ?_⟩
    rw [Nat.testBit_two_pow]
    have hlog := Nat.testBit_log2 hn
    by_cases hi : n.log2 = i
    · rw [decide_eq_true hi, ← hi]
      exact hlog
    · rw [decide_eq_false hi, Bool.eq_false_iff]
      exact fun hbit => hi (h _ _ hlog hbit)

/-- An item that occurs once at most is at one position. -/
theorem count_le_one_iff {α : Type} [DecidableEq α] {l : List α} {a : α} :
    l.count a ≤ 1 ↔ ∀ i j : Nat, l[i]? = some a → l[j]? = some a → i = j := by
  rw [← Nat.not_lt, Nat.lt_iff_add_one_le, ← List.duplicate_iff_two_le_count,
    List.duplicate_iff_exists_distinct_get]
  constructor
  · intro h i j hi hj
    obtain ⟨hilt, hi⟩ := List.getElem?_eq_some_iff.mp hi
    obtain ⟨hjlt, hj⟩ := List.getElem?_eq_some_iff.mp hj
    rcases Nat.lt_trichotomy i j with hlt | heq | hlt
    · exact absurd ⟨⟨i, hilt⟩, ⟨j, hjlt⟩, hlt, hi.symm, hj.symm⟩ h
    · exact heq
    · exact absurd ⟨⟨j, hjlt⟩, ⟨i, hilt⟩, hlt, hj.symm, hi.symm⟩ h
  · intro h ⟨i, j, hlt, hi, hj⟩
    have hij := h i j (List.getElem?_eq_some_iff.mpr ⟨i.isLt, hi.symm⟩)
      (List.getElem?_eq_some_iff.mpr ⟨j.isLt, hj.symm⟩)
    exact Nat.ne_of_lt hlt hij

namespace MaskSpec

variable {m : MaskSpec}

/-- Whether the entry is neither an ellipsis nor a new axis. -/
def takes (m : MaskSpec) (i : Nat) : Bool :=
  !m.ellipsisMask.testBit i && !m.newAxisMask.testBit i

/-- No two ellipsis bits are set. -/
def OneEllipsis (m : MaskSpec) : Prop :=
  ∀ i j, m.ellipsisMask.testBit i = true → m.ellipsisMask.testBit j = true → i = j

/-- What the masks at a position make of three numbers. -/
def decoded (m : MaskSpec) (i : Nat) (first last stride : Int) : Entry :=
  if m.ellipsisMask.testBit i then .ellipsis
  else if m.newAxisMask.testBit i then .newAxis
  else if m.shrinkMask.testBit i then .fixed first
  else Entry.ofRange (if m.beginMask.testBit i then none else some first)
    (if m.endMask.testBit i then none else some last) stride

def entryAt (m : MaskSpec) (i : Nat) : Entry :=
  m.decoded i (m.begins.getD i 0) (m.ends.getD i 0) (m.strides.getD i 0)

theorem entry_eq_ok {i : Nat} {first last stride : Int} {e : Entry} :
    m.entry i first last stride = .ok e ↔
      (m.takes i = true → m.shrinkMask.testBit i = true → stride ≠ 0) ∧
        m.decoded i first last stride = e := by
  unfold entry decoded takes
  by_cases hellipsis : m.ellipsisMask.testBit i = true
  · simp [hellipsis]
  by_cases hnew : m.newAxisMask.testBit i = true
  · simp [hellipsis, hnew]
  by_cases hshrink : m.shrinkMask.testBit i = true
  · by_cases hstride : stride = 0
    · simp [hellipsis, hnew, hshrink, hstride]
    · simp [hellipsis, hnew, hshrink, hstride]
  · simp [hellipsis, hnew, hshrink]

/-- The three numbers at a position. -/
def numbersAt (m : MaskSpec) (i : Nat) : Int × Int × Int :=
  (m.begins.getD i 0, m.ends.getD i 0, m.strides.getD i 0)

theorem zip_numbers (hends : m.begins.length = m.ends.length)
    (hstrides : m.ends.length = m.strides.length) :
    m.begins.zip (m.ends.zip m.strides) = (List.range' 0 m.dims).map m.numbersAt := by
  refine List.ext_getElem (by simp [dims]; omega) fun i hi hi' => ?_
  simp only [List.length_map, List.length_range', dims] at hi'
  simp [numbersAt, List.getElem?_eq_getElem hi',
    List.getElem?_eq_getElem (show i < m.ends.length by omega),
    List.getElem?_eq_getElem (show i < m.strides.length by omega)]

theorem entriesFrom_eq_ok {i n : Nat} {es : List Entry} :
    m.entriesFrom i ((List.range' i n).map m.numbersAt) = .ok es ↔
      (∀ k ∈ List.range' i n, m.takes k = true → m.shrinkMask.testBit k = true →
        m.strides.getD k 0 ≠ 0) ∧ (List.range' i n).map m.entryAt = es := by
  induction n generalizing i es with
  | zero =>
    show Except.ok [] = _ ↔ _
    simp
  | succ n ih =>
    rw [List.range'_succ, List.map_cons, List.map_cons, List.forall_mem_cons]
    show (do
      let e ← m.entry i (m.begins.getD i 0) (m.ends.getD i 0) (m.strides.getD i 0)
      return e :: (← m.entriesFrom (i + 1) ((List.range' (i + 1) n).map m.numbersAt))) =
        Except.ok es ↔ _
    simp only [except_bind_eq_ok, except_pure_eq_ok, entry_eq_ok, ih]
    constructor
    · intro h
      obtain ⟨_, ⟨hi, rfl⟩, _, ⟨hrest, rfl⟩, rfl⟩ := h
      exact ⟨⟨hi, hrest⟩, rfl⟩
    · intro h
      obtain ⟨⟨hi, hrest⟩, rfl⟩ := h
      exact ⟨_, ⟨hi, rfl⟩, _, ⟨hrest, rfl⟩, rfl⟩

theorem validate_eq_ok : m.validate = .ok () ↔
    (m.begins.length = m.ends.length ∧ m.ends.length = m.strides.length) ∧ m.OneEllipsis := by
  rw [OneEllipsis, ← and_pred_eq_zero]
  unfold validate
  split_ifs <;> simp_all

/-- When a specification decodes, and what its entries are. -/
theorem entries_eq_ok {es : List Entry} : m.entries = .ok es ↔
    ((m.begins.length = m.ends.length ∧ m.ends.length = m.strides.length) ∧ m.OneEllipsis) ∧
    (∀ i < m.dims, m.takes i = true → m.shrinkMask.testBit i = true → m.strides.getD i 0 ≠ 0) ∧
    (List.range m.dims).map m.entryAt = es := by
  unfold entries
  simp only [except_bind_eq_ok]
  rw [← validate_eq_ok]
  constructor
  · intro h
    obtain ⟨_, hvalid, h⟩ := h
    obtain ⟨⟨hends, hstrides⟩, _⟩ := validate_eq_ok.mp hvalid
    rw [zip_numbers hends hstrides, entriesFrom_eq_ok, ← List.range_eq_range'] at h
    exact ⟨hvalid, fun i hi => h.1 i (List.mem_range.mpr hi), h.2⟩
  · intro h
    obtain ⟨hvalid, h, hes⟩ := h
    obtain ⟨⟨hends, hstrides⟩, _⟩ := validate_eq_ok.mp hvalid
    refine ⟨(), hvalid, ?_⟩
    rw [zip_numbers hends hstrides, entriesFrom_eq_ok, ← List.range_eq_range']
    exact ⟨fun i hi => h i (List.mem_range.mp hi), hes⟩

theorem entryAt_eq_ellipsis {i : Nat} :
    m.entryAt i = .ellipsis ↔ m.ellipsisMask.testBit i = true := by
  unfold entryAt decoded Entry.ofRange
  split_ifs <;> simp_all

theorem count_ellipsis_le {es : List Entry} (h : m.entries = .ok es) : es.count .ellipsis ≤ 1 := by
  obtain ⟨⟨_, hone⟩, _, rfl⟩ := entries_eq_ok.mp h
  have hbit : ∀ {i : Nat}, ((List.range m.dims).map m.entryAt)[i]? = some .ellipsis →
      m.ellipsisMask.testBit i = true := by
    intro i hi
    obtain ⟨_, hentry⟩ := List.getElem?_eq_some_iff.mp hi
    rw [List.getElem_map, List.getElem_range] at hentry
    exact entryAt_eq_ellipsis.mp hentry
  exact count_le_one_iff.mpr fun i j hi hj => hone i j (hbit hi) (hbit hj)

end MaskSpec

theorem Resolution.ofValue_fits {shape : Shape} {spec : Value} {r : Resolution}
    (h : Resolution.ofValue shape spec = .ok r) : r.Fits ∧ r.inputShape = shape := by
  simp only [Resolution.ofValue, MaskSpec.resolve, except_bind_eq_ok] at h
  obtain ⟨_, _, _, hentries, h⟩ := h
  exact Entry.resolve_fits (MaskSpec.count_ellipsis_le hentries) h

end Hyperslab
