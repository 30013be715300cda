import Hyperslab.Proofs.Places
import Mathlib.Tactic.Linarith

/-!
# Walks along one axis

The size of an interval is the number of steps after which the walk is still
before `stop`, for any bounds.  The bounds that resolving gives lie within limits
that depend on the direction (`Fits`), and then every index visited is an index of
the axis.
-/

namespace Hyperslab
namespace Interval

/-- Whether the walk is still before `stop` after `k` steps. -/
def Visits (i : Interval) (k : Int) : Prop :=
  if 0 < i.step then i.index k < i.stop else i.stop < i.index k

/-- A quotient rounded up counts the multiples of the divisor below the dividend. -/
theorem lt_ceil_iff {d s : Int} (hs : 0 < s) (k : Int) :
    k < d.fdiv s + (if d.fmod s = 0 then 0 else 1) ↔ s * k < d := by
  rw [Int.fdiv_eq_ediv_of_nonneg d hs.le, Int.fmod_eq_emod_of_nonneg d hs.le]
  have hd := Int.mul_ediv_add_emod d s
  have h0 := Int.emod_nonneg d hs.ne'
  have hr := Int.emod_lt_of_pos d hs
  generalize d / s = q at *
  generalize d % s = r at *
  subst hd
  by_cases hz : r = 0
  · rw [if_pos hz, hz, Int.add_zero, Int.add_zero]
    exact (Int.mul_lt_mul_left hs).symm
  · rw [if_neg hz, Int.lt_add_one_iff]
    constructor
    · intro hk
      have := Int.mul_le_mul_of_nonneg_left hk hs.le
      omega
    · intro hk
      by_contra hlt
      have := Int.mul_le_mul_of_nonneg_left (show q + 1 ≤ k by omega) hs.le
      rw [Int.mul_add, Int.mul_one] at this
      omega

theorem size_eq_zero {i : Interval}
    (h : i.stop - i.start = 0 ∨ ¬(i.stop - i.start < 0 ↔ i.step < 0)) :
    i.size = 0 := by
  rw [← decide_eq_decide] at h
  exact if_pos h

theorem size_eq_ceil {i : Interval} (h0 : i.stop - i.start ≠ 0)
    (hs : i.stop - i.start < 0 ↔ i.step < 0) :
    i.size = (Int.fdiv (i.stop - i.start) i.step +
      (if Int.fmod (i.stop - i.start) i.step = 0 then 0 else 1)).toNat := by
  refine if_neg ?_
  rw [Ne, decide_eq_decide]
  tauto

theorem lt_size_iff {i : Interval} (hstep : i.step ≠ 0) (k : Nat) : k < i.size ↔ i.Visits k := by
  have hk : (0 : Int) ≤ k := Int.natCast_nonneg k
  rw [Visits, index]
  rcases Int.lt_or_gt_of_ne hstep with hneg | hpos
  · rw [if_neg (Int.not_lt.mpr hneg.le)]
    by_cases h : i.stop - i.start < 0
    · have hc := lt_ceil_iff (d := -(i.stop - i.start)) (Int.neg_pos_of_neg hneg) k
      simp only [Int.neg_fdiv_neg, Int.neg_fmod_neg, Int.neg_eq_zero, Int.neg_mul] at hc
      rw [size_eq_ceil (by omega) (by omega)]
      omega
    · have hle := Int.mul_nonpos_of_nonpos_of_nonneg hneg.le hk
      rw [size_eq_zero (by omega)]
      omega
  · rw [if_pos hpos]
    by_cases h : 0 < i.stop - i.start
    · have hc := lt_ceil_iff (d := i.stop - i.start) hpos k
      rw [size_eq_ceil (by omega) (by omega)]
      omega
    · have hle := Int.mul_nonneg hpos.le hk
      rw [size_eq_zero (by omega)]
      omega

theorem size_of_step_one {i : Interval} (h : i.step = 1) : i.size = (i.stop - i.start).toNat := by
  have hstep : i.step ≠ 0 := by omega
  have hlt : ∀ k : Nat, k < i.size ↔ k < (i.stop - i.start).toNat := by
    intro k
    rw [lt_size_iff hstep, Visits, if_pos (by omega), index, h, Int.one_mul]
    omega
  have h₁ := hlt i.size
  have h₂ := hlt (i.stop - i.start).toNat
  omega

theorem index_injective {i : Interval} (hstep : i.step ≠ 0) {a b : Int}
    (h : i.index a = i.index b) : a = b := by
  rw [index, index] at h
  exact Int.eq_of_mul_eq_mul_left hstep (by omega)

/-! ## Bounds within the limits of an axis -/

structure Fits (i : Interval) (extent : Nat) : Prop where
  step : i.step ≠ 0
  start_low : (limits extent i.step).1 ≤ i.start
  start_high : i.start ≤ (limits extent i.step).2
  stop_low : (limits extent i.step).1 ≤ i.stop
  stop_high : i.stop ≤ (limits extent i.step).2

theorem Fits.of_step_one {i : Interval} {extent : Nat} (h : i.Fits extent) (hstep : i.step = 1) :
    (0 ≤ i.start ∧ i.start ≤ extent) ∧ 0 ≤ i.stop ∧ i.stop ≤ extent := by
  obtain ⟨_, hstart, hstart', hstop, hstop'⟩ := h
  rw [limits, if_pos (by omega)] at hstart hstart' hstop hstop'
  exact ⟨⟨hstart, hstart'⟩, hstop, hstop'⟩

/-- Every index that is visited is an index of the axis. -/
theorem Fits.index_mem {i : Interval} {extent : Nat} (h : i.Fits extent) {k : Int} (h0 : 0 ≤ k)
    (hk : k < i.size) : 0 ≤ i.index k ∧ i.index k < extent := by
  obtain ⟨hstep, hstart, hstart', hstop, hstop'⟩ := h
  have hvisit := (lt_size_iff hstep k.toNat).mp (by omega)
  rw [Int.toNat_of_nonneg h0, Visits] at hvisit
  unfold limits at *
  rcases Int.lt_or_gt_of_ne hstep with hneg | hpos
  · have hnot : ¬0 < i.step := Int.not_lt.mpr hneg.le
    rw [if_neg hnot] at *
    have hle := Int.mul_nonpos_of_nonpos_of_nonneg hneg.le h0
    rw [index] at *
    omega
  · rw [if_pos hpos] at *
    have hle := Int.mul_nonneg hpos.le h0
    rw [index] at *
    omega

theorem clamp_mem (extent : Nat) (step : Int) (b : Bound) (value : Option Int) :
    (limits extent step).1 ≤ clamp extent step b value ∧
      clamp extent step b value ≤ (limits extent step).2 := by
  have hlimits : (limits extent step).1 ≤ (limits extent step).2 := by
    unfold limits
    split <;> simp only <;> omega
  unfold clamp
  generalize limits extent step = r at *
  obtain ⟨low, high⟩ := r
  cases value with
  | none =>
    show low ≤ (if _ then low else high) ∧ (if _ then low else high) ≤ high
    split
    · exact ⟨Int.le_refl low, hlimits⟩
    · exact ⟨hlimits, Int.le_refl high⟩
  | some v =>
    show low ≤ max low (min _ high) ∧ max low (min _ high) ≤ high
    exact ⟨le_max_left _ _, max_le hlimits (min_le_right _ _)⟩

theorem ofBounds_fits {extent : Nat} {start stop : Option Int} {step : Int} (h : step ≠ 0) :
    (ofBounds extent start stop step).Fits extent where
  step := h
  start_low := (clamp_mem extent step .first start).1
  start_high := (clamp_mem extent step .first start).2
  stop_low := (clamp_mem extent step .last stop).1
  stop_high := (clamp_mem extent step .last stop).2

theorem whole_fits (extent : Nat) : (whole extent).Fits extent :=
  ⟨Int.one_ne_zero, Int.le_refl 0, Int.natCast_nonneg extent, Int.natCast_nonneg extent,
    Int.le_refl _⟩

theorem single_fits {extent : Nat} {i : Int} (h0 : 0 ≤ i) (hi : i < extent) :
    (single i).Fits extent :=
  ⟨Int.one_ne_zero, h0, Int.le_of_lt hi, Int.le_trans h0 (Int.le_of_lt (Int.lt_succ i)), hi⟩

theorem size_whole (extent : Nat) : (whole extent).size = extent := by
  rw [size_of_step_one rfl, whole, Int.sub_zero, Int.toNat_natCast]

theorem size_single (i : Int) : (single i).size = 1 := by
  rw [size_of_step_one rfl, single]
  show (i + 1 - i).toNat = 1
  omega

theorem isWhole_iff {i : Interval} {extent : Nat} :
    i.isWhole extent = true ↔ i = whole extent := by
  obtain ⟨start, stop, step⟩ := i
  rw [isWhole, whole, Bool.and_eq_true, Bool.and_eq_true, decide_eq_true_eq, decide_eq_true_eq,
    decide_eq_true_eq, Interval.mk.injEq]
  tauto

theorem index_whole (extent : Nat) (k : Int) : (whole extent).index k = k := by
  rw [index, whole, Int.one_mul, Int.zero_add]

end Interval

end Hyperslab
