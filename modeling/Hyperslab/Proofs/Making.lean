import Hyperslab.Proofs.Opening
import Hyperslab.Proofs.Visits

/-!
# Shapes that arrays are made in

A shape is refused for its number of axes or for its size.  The final shape of a
selection shrinks axes, drops axes and inserts axes of extent one, so it is only
refused where the shape of the array was, or for the axes inserted.
-/

namespace Hyperslab
namespace Shape

/-- The number of elements that a shape would have without its empty axes. -/
def solid (s : Shape) : Nat := size (s.filter (· != 0))

/-- The axes of a shape, each shrunk, or dropped where it is not empty, and axes of extent one. -/
inductive Shrinks : Shape → Shape → Prop
  | nil : Shrinks [] []
  | keep {m n : Nat} {s t : Shape} (h : m ≤ n) (hs : Shrinks s t) : Shrinks (m :: s) (n :: t)
  | drop {n : Nat} {s t : Shape} (h : 1 ≤ n) (hs : Shrinks s t) : Shrinks s (n :: t)
  | insert {s t : Shape} (hs : Shrinks s t) : Shrinks (1 :: s) t

theorem solid_cons (n : Nat) (s : Shape) : solid (n :: s) = max n 1 * solid s := by
  unfold solid
  by_cases h : n = 0
  · subst h
    rw [List.filter_cons_of_neg (by decide)]
    exact (Nat.one_mul _).symm
  · rw [List.filter_cons_of_pos (by simpa using h), size_cons, Nat.max_eq_left (by omega)]

theorem solid_pos (s : Shape) : 0 < solid s := by
  induction s with
  | nil => exact Nat.one_pos
  | cons n s ih =>
    rw [solid_cons]
    exact Nat.mul_pos (by omega) ih

theorem size_le_solid (s : Shape) : size s ≤ solid s := by
  induction s with
  | nil => exact Nat.le_refl 1
  | cons n s ih =>
    rw [size_cons, solid_cons]
    exact Nat.mul_le_mul (Nat.le_max_left n 1) ih

theorem le_solid {s : Shape} {n : Nat} (h : n ∈ s) : n ≤ solid s := by
  induction s with
  | nil => cases h
  | cons m s ih =>
    rw [solid_cons]
    have hpos := solid_pos s
    rcases List.mem_cons.mp h with rfl | h
    · exact Nat.le_trans (Nat.le_max_left n 1) (Nat.le_mul_of_pos_right _ hpos)
    · exact Nat.le_trans (ih h) (Nat.le_mul_of_pos_left _ (by omega))

namespace Shrinks

variable {s t : Shape}

theorem solid_le (h : Shrinks s t) : solid s ≤ solid t := by
  induction h with
  | nil => exact Nat.le_refl 1
  | keep h _ ih =>
    rw [solid_cons, solid_cons]
    exact Nat.mul_le_mul (by omega) ih
  | drop h _ ih =>
    rw [solid_cons]
    exact Nat.le_trans ih (Nat.le_mul_of_pos_left _ (by omega))
  | insert _ ih =>
    rw [solid_cons, Nat.max_self, Nat.one_mul]
    exact ih

/-- An extent is one that was inserted, or is at most that of an axis. -/
theorem mem_le (h : Shrinks s t) {m : Nat} (hm : m ∈ s) : m ≤ 1 ∨ ∃ n ∈ t, m ≤ n := by
  induction h with
  | nil => cases hm
  | keep h _ ih =>
    rcases List.mem_cons.mp hm with rfl | hm
    · exact .inr ⟨_, List.mem_cons_self, h⟩
    · exact (ih hm).imp_right fun ⟨n, hn, hle⟩ => ⟨n, List.mem_cons_of_mem _ hn, hle⟩
  | drop h _ ih =>
    exact (ih hm).imp_right fun ⟨n, hn, hle⟩ => ⟨n, List.mem_cons_of_mem _ hn, hle⟩
  | insert _ ih =>
    rcases List.mem_cons.mp hm with rfl | hm
    · exact .inl (Nat.le_refl 1)
    · exact ih hm

theorem countable (h : Shrinks s t) {a b : Nat} (hab : a ≤ b) (hb : b < Number.twoTo 64)
    (ht : View.countable b t = true) : View.countable a s = true := by
  induction h generalizing a b with
  | nil => rfl
  | keep h _ ih =>
    rw [View.countable, Bool.and_eq_true, decide_eq_true_eq] at ht ⊢
    have hle := Nat.mul_le_mul hab h
    exact ⟨Nat.lt_of_le_of_lt hle ht.1, ih hle ht.1 ht.2⟩
  | drop h _ ih =>
    rw [View.countable, Bool.and_eq_true, decide_eq_true_eq] at ht
    exact ih (Nat.le_trans hab (Nat.le_mul_of_pos_right b h)) ht.1 ht.2
  | insert _ ih =>
    rw [View.countable, Nat.mul_one, Bool.and_eq_true, decide_eq_true_eq]
    exact ⟨Nat.lt_of_le_of_lt hab hb, ih hab hb ht⟩

end Shrinks

end Shape

/-- An interval that suits an axis visits at most as many indices as the axis has. -/
theorem AxisSelection.Fits.size_le {a : AxisSelection} (h : a.Fits) : a.size ≤ a.extent := by
  have hfits : Resolution.Fits ⟨[.axis a]⟩ := List.forall_mem_singleton.mpr h
  have hle := Resolution.size_le hfits
  rwa [show Resolution.size ⟨[.axis a]⟩ = a.size from Nat.mul_one a.size,
    show Shape.size (Resolution.inputShape ⟨[.axis a]⟩) = a.extent from Nat.mul_one a.extent] at hle

theorem Resolution.finalShape_shrinks {r : Resolution} (h : r.Fits) :
    Shape.Shrinks r.finalShape r.inputShape := by
  obtain ⟨slots⟩ := r
  show Shape.Shrinks (slots.filterMap Slot.finalExtent?)
    ((slots.filterMap Slot.axis?).map (·.extent))
  replace h : ∀ a ∈ slots.filterMap Slot.axis?, a.Fits := h
  induction slots with
  | nil => exact .nil
  | cons slot slots ih =>
    cases slot with
    | inserted => exact .insert (ih h)
    | axis a =>
      obtain ⟨ha, hrest⟩ := List.forall_mem_cons.mp h
      have hsize := ha.size_le
      by_cases hd : a.dropped = true
      · rw [List.filterMap_cons_none (show Slot.finalExtent? (.axis a) = none from if_pos hd)]
        rw [ha.dropped hd] at hsize
        exact .drop hsize (ih hrest)
      · rw [List.filterMap_cons_some
          (show Slot.finalExtent? (.axis a) = some a.size from if_neg hd)]
        exact .keep hsize (ih hrest)

namespace View

variable {type : ElementType} {s t : Shape}

theorem inRange_iff {n : Int} : ElementType.int64.inRange n = true ↔
    -(Number.twoTo 63 : Int) ≤ n ∧ n < (Number.twoTo 63 : Int) := by
  show (decide (-(Number.twoTo 63 : Int) ≤ n) && decide (n < (Number.twoTo 63 : Int))) = true ↔ _
  rw [Bool.and_eq_true, decide_eq_true_eq, decide_eq_true_eq]

theorem inRange_natCast {n : Nat} :
    ElementType.int64.inRange n = true ↔ n < Number.twoTo 63 := by
  rw [inRange_iff]
  omega

theorem checkHost_eq_ok : checkHost type s = .ok () ↔
    s.length ≤ maxAxes ∧ bytes .host type s < Number.twoTo 63 := by
  unfold checkHost
  split_ifs with hrank hbytes
  · simp [hrank]
  · rw [Bool.not_eq_true', ← Bool.not_eq_true, inRange_natCast] at hbytes
    simp [hbytes]
  · rw [Bool.not_eq_true', Bool.not_eq_false, inRange_natCast] at hbytes
    simp [hbytes, Nat.not_lt.mp hrank]

theorem checkTensor_eq_ok : checkTensor s = .ok () ↔
    (∀ n ∈ s, n < Number.twoTo 63) ∧ countable 1 s = true := by
  unfold checkTensor
  split_ifs with hextent hsize
  · simp only [List.any_eq_true, Bool.not_eq_true', ← Bool.not_eq_true, inRange_natCast] at hextent
    obtain ⟨n, hn, hlarge⟩ := hextent
    constructor
    · intro h
      cases h
    · intro h
      exact absurd (h.1 n hn) hlarge
  · rw [Bool.not_eq_true', ← Bool.not_eq_true] at hsize
    simp [hsize]
  · simp only [List.any_eq_true, Bool.not_eq_true', ← Bool.not_eq_true, inRange_natCast] at hextent
    rw [Bool.not_eq_true', Bool.not_eq_false] at hsize
    push Not at hextent
    exact ⟨fun _ => ⟨hextent, hsize⟩, fun _ => rfl⟩

/-- The final shape of a selection is one that arrays are made in, unless it has too many axes. -/
theorem checkShape_shrinks {kind : ArrayKind} (h : Shape.Shrinks s t)
    (ht : checkShape kind type t = .ok ()) :
    checkShape kind type s = .ok () ∨ kind = .host ∧ maxAxes < s.length := by
  cases kind with
  | host =>
    obtain ⟨_, hbytes⟩ := checkHost_eq_ok.mp ht
    by_cases hrank : maxAxes < s.length
    · exact .inr ⟨rfl, hrank⟩
    · refine .inl (checkHost_eq_ok.mpr ⟨Nat.not_lt.mp hrank, ?_⟩)
      exact Nat.lt_of_le_of_lt (Nat.mul_le_mul_left _ h.solid_le) hbytes
  | tensor =>
    obtain ⟨hextents, hcount⟩ := checkTensor_eq_ok.mp ht
    refine .inl (checkTensor_eq_ok.mpr ⟨fun m hm => ?_,
      h.countable (Nat.le_refl 1) (by decide) hcount⟩)
    rcases h.mem_le hm with hle | ⟨n, hn, hle⟩
    · exact Nat.lt_of_le_of_lt hle (by decide)
    · exact Nat.lt_of_le_of_lt hle (hextents n hn)

theorem countable_of_solid {count : Nat} (h : count * Shape.solid s < Number.twoTo 64) :
    countable count s = true := by
  induction s generalizing count with
  | nil => rfl
  | cons n s ih =>
    rw [Shape.solid_cons, ← Nat.mul_assoc] at h
    have hle : count * n ≤ count * max n 1 := Nat.mul_le_mul_left count (Nat.le_max_left n 1)
    have hrest := Nat.lt_of_le_of_lt (Nat.mul_le_mul_right (Shape.solid s) hle) h
    rw [countable, Bool.and_eq_true, decide_eq_true_eq]
    refine ⟨Nat.lt_of_le_of_lt ?_ hrest, ih hrest⟩
    exact Nat.le_mul_of_pos_right _ (Shape.solid_pos s)

theorem itemSize_pos (type : ElementType) : 0 < type.itemSize := by
  cases type with
  | signed w | unsigned w => cases w <;> decide
  | boolean | float32 | float64 | other => decide

/-- Tensors have every shape that host arrays have. -/
theorem checkTensor_of_checkHost (h : checkHost type s = .ok ()) : checkTensor s = .ok () := by
  obtain ⟨_, hbytes⟩ := checkHost_eq_ok.mp h
  have hdouble : Number.twoTo 63 < Number.twoTo 64 := by decide
  have hsolid : Shape.solid s ≤ bytes .host type s :=
    Nat.le_mul_of_pos_left (Shape.solid s) (itemSize_pos type)
  refine checkTensor_eq_ok.mpr ⟨fun n hn => ?_, countable_of_solid ?_⟩
  · have := Shape.le_solid hn
    omega
  · omega

/-- A tensor takes the least memory. -/
theorem bytes_tensor_le (kind : ArrayKind) (type : ElementType) (s : Shape) :
    bytes .tensor type s ≤ bytes kind type s := by
  cases kind with
  | host => exact Nat.mul_le_mul_left _ (Shape.size_le_solid s)
  | tensor => exact Nat.le_refl _

end View

end Hyperslab
