import Hyperslab.Proofs.Resolve

/-!
# Fields that nothing looks at

The masks rank in one order, and an entry that a mask decides does not look at the masks
behind it, nor at numbers that it has no use for.  Two specifications that agree on the
fields looked at decode to the same entries, or stop at the same fault, so they resolve
alike against every shape.
-/

namespace Hyperslab
namespace MaskSpec

/-- Two specifications agree on what decoding looks at in entry `i`. -/
structure AgreesAt (m m' : MaskSpec) (i : Nat) : Prop where
  ellipsis : m.ellipsisMask.testBit i = m'.ellipsisMask.testBit i
  newAxis : m.ellipsisMask.testBit i = false →
    m.newAxisMask.testBit i = m'.newAxisMask.testBit i
  shrink : m.takes i = true → m.shrinkMask.testBit i = m'.shrinkMask.testBit i
  /-- Of a single index, the index counts, and whether its stride is zero. -/
  single : m.takes i = true → m.shrinkMask.testBit i = true →
    m.begins.getD i 0 = m'.begins.getD i 0 ∧
      (m.strides.getD i 0 = 0 ↔ m'.strides.getD i 0 = 0)
  /-- A plain entry has all three numbers, except for the bounds that its bits ignore. -/
  plain : m.takes i = true → m.shrinkMask.testBit i = false →
    m.strides.getD i 0 = m'.strides.getD i 0 ∧
      m.beginMask.testBit i = m'.beginMask.testBit i ∧
      m.endMask.testBit i = m'.endMask.testBit i ∧
      (m.beginMask.testBit i = false → m.begins.getD i 0 = m'.begins.getD i 0) ∧
      (m.endMask.testBit i = false → m.ends.getD i 0 = m'.ends.getD i 0)

instance (m m' : MaskSpec) (i : Nat) : Decidable (m.AgreesAt m' i) :=
  decidable_of_iff
    (m.ellipsisMask.testBit i = m'.ellipsisMask.testBit i ∧
      (m.ellipsisMask.testBit i = false →
        m.newAxisMask.testBit i = m'.newAxisMask.testBit i) ∧
      (m.takes i = true → m.shrinkMask.testBit i = m'.shrinkMask.testBit i) ∧
      (m.takes i = true → m.shrinkMask.testBit i = true →
        m.begins.getD i 0 = m'.begins.getD i 0 ∧
          (m.strides.getD i 0 = 0 ↔ m'.strides.getD i 0 = 0)) ∧
      (m.takes i = true → m.shrinkMask.testBit i = false →
        m.strides.getD i 0 = m'.strides.getD i 0 ∧
          m.beginMask.testBit i = m'.beginMask.testBit i ∧
          m.endMask.testBit i = m'.endMask.testBit i ∧
          (m.beginMask.testBit i = false → m.begins.getD i 0 = m'.begins.getD i 0) ∧
          (m.endMask.testBit i = false → m.ends.getD i 0 = m'.ends.getD i 0)))
    ⟨fun ⟨hellipsis, hnew, hshrink, hsingle, hplain⟩ =>
        ⟨hellipsis, hnew, hshrink, hsingle, hplain⟩,
      fun h => ⟨h.ellipsis, h.newAxis, h.shrink, h.single, h.plain⟩⟩

variable {m m' : MaskSpec} {i : Nat}

/-- The entry at a position, or the fault of its stride. -/
def decodedAt (m : MaskSpec) (i : Nat) : Except Fault Entry :=
  m.entry i (m.begins.getD i 0) (m.ends.getD i 0) (m.strides.getD i 0)

theorem decodedAt_ellipsis (h : m.ellipsisMask.testBit i = true) :
    m.decodedAt i = .ok .ellipsis := if_pos h

theorem decodedAt_newAxis (h : m.ellipsisMask.testBit i = false)
    (hn : m.newAxisMask.testBit i = true) : m.decodedAt i = .ok .newAxis := by
  rw [decodedAt, entry, if_neg (Bool.eq_false_iff.mp h), if_pos hn]

theorem takes_iff : m.takes i = true ↔
    m.ellipsisMask.testBit i = false ∧ m.newAxisMask.testBit i = false := by
  rw [takes, Bool.and_eq_true, Bool.not_eq_true', Bool.not_eq_true']

theorem decodedAt_shrink (ht : m.takes i = true) (hs : m.shrinkMask.testBit i = true) :
    m.decodedAt i = if m.strides.getD i 0 = 0 then .error (.zeroStride i)
      else .ok (.fixed (m.begins.getD i 0)) := by
  obtain ⟨he, hn⟩ := takes_iff.mp ht
  rw [decodedAt, entry, if_neg (Bool.eq_false_iff.mp he), if_neg (Bool.eq_false_iff.mp hn),
    if_pos hs]

theorem decodedAt_plain (ht : m.takes i = true) (hs : m.shrinkMask.testBit i = false) :
    m.decodedAt i =
      .ok (Entry.ofRange (if m.beginMask.testBit i then none else some (m.begins.getD i 0))
        (if m.endMask.testBit i then none else some (m.ends.getD i 0)) (m.strides.getD i 0)) := by
  obtain ⟨he, hn⟩ := takes_iff.mp ht
  rw [decodedAt, entry, if_neg (Bool.eq_false_iff.mp he), if_neg (Bool.eq_false_iff.mp hn),
    if_neg (Bool.eq_false_iff.mp hs)]

namespace AgreesAt

theorem takes (h : m.AgreesAt m' i) : m.takes i = m'.takes i := by
  rw [MaskSpec.takes, MaskSpec.takes, ← h.ellipsis]
  cases he : m.ellipsisMask.testBit i with
  | true => rfl
  | false => rw [h.newAxis he]

theorem decodedAt (h : m.AgreesAt m' i) : m.decodedAt i = m'.decodedAt i := by
  cases he : m.ellipsisMask.testBit i with
  | true => rw [decodedAt_ellipsis he, decodedAt_ellipsis (h.ellipsis ▸ he)]
  | false =>
  cases hn : m.newAxisMask.testBit i with
  | true => rw [decodedAt_newAxis he hn, decodedAt_newAxis (h.ellipsis ▸ he) (h.newAxis he ▸ hn)]
  | false =>
  have ht : m.takes i = true := takes_iff.mpr ⟨he, hn⟩
  have ht' : m'.takes i = true := h.takes ▸ ht
  cases hs : m.shrinkMask.testBit i with
  | true =>
    obtain ⟨hindex, hzero⟩ := h.single ht hs
    rw [decodedAt_shrink ht hs, decodedAt_shrink ht' (h.shrink ht ▸ hs), hindex]
    simp only [hzero]
  | false =>
    obtain ⟨hstride, hbegin, hend, hfirst, hlast⟩ := h.plain ht hs
    have hstart : (if m.beginMask.testBit i then none else some (m.begins.getD i 0)) =
        if m'.beginMask.testBit i then none else some (m'.begins.getD i 0) := by
      rw [← hbegin]
      cases hb : m.beginMask.testBit i with
      | true => rfl
      | false => rw [hfirst hb]
    have hstop : (if m.endMask.testBit i then none else some (m.ends.getD i 0)) =
        if m'.endMask.testBit i then none else some (m'.ends.getD i 0) := by
      rw [← hend]
      cases hb : m.endMask.testBit i with
      | true => rfl
      | false => rw [hlast hb]
    rw [decodedAt_plain ht hs, decodedAt_plain ht' (h.shrink ht ▸ hs), hstart, hstop, hstride]

end AgreesAt

/-- Entries are decoded one by one, each at its own position. -/
theorem entriesFrom_congr {start n : Nat} (h : ∀ i ∈ List.range' start n, m.AgreesAt m' i) :
    m.entriesFrom start ((List.range' start n).map m.numbersAt) =
      m'.entriesFrom start ((List.range' start n).map m'.numbersAt) := by
  induction n generalizing start with
  | zero => rfl
  | succ n ih =>
    rw [List.range'_succ, List.forall_mem_cons] at h
    rw [List.range'_succ, List.map_cons, List.map_cons]
    show (do
      let e ← m.decodedAt start
      return e :: (← m.entriesFrom (start + 1) ((List.range' (start + 1) n).map m.numbersAt))) =
        do
          let e ← m'.decodedAt start
          return e ::
            (← m'.entriesFrom (start + 1) ((List.range' (start + 1) n).map m'.numbersAt))
    rw [h.1.decodedAt, ih h.2]

theorem entries_congr (hdims : m.dims = m'.dims) (hvalid : m.validate = .ok ())
    (hvalid' : m'.validate = .ok ()) (h : ∀ i < m.dims, m.AgreesAt m' i) :
    m.entries = m'.entries := by
  obtain ⟨⟨hends, hstrides⟩, _⟩ := validate_eq_ok.mp hvalid
  obtain ⟨⟨hends', hstrides'⟩, _⟩ := validate_eq_ok.mp hvalid'
  rw [entries, entries, hvalid, hvalid', zip_numbers hends hstrides, zip_numbers hends' hstrides',
    entriesFrom_congr fun i hi => h i (by simpa using List.mem_range'_1.mp hi), hdims]

/-- An ellipsis, a new axis, the last index, a range without a start and one without a stop. -/
def plainly : MaskSpec where
  begins := [0, 0, -1, 0, 1]
  ends := [0, 0, 0, 2, 0]
  strides := [1, 1, 1, 1, -2]
  beginMask := 8
  endMask := 16
  ellipsisMask := 1
  newAxisMask := 2
  shrinkMask := 4

/-- The same entries with other numbers and bits wherever nothing looks. -/
def cluttered : MaskSpec where
  begins := [9, -7, -1, 6, 1]
  ends := [5, 5, -3, 2, 8]
  strides := [0, 0, -4, 1, -2]
  beginMask := 79
  endMask := 54
  ellipsisMask := 1
  newAxisMask := 67
  shrinkMask := 135

end MaskSpec
end Hyperslab
