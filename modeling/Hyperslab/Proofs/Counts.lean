import Hyperslab.Proofs.Walks
import Mathlib.Data.Set.Card

/-!
# How often a walk is before its end

The size of an interval is computed by one division, and `Visits` says of a single
step whether the walk is still before `stop` after it.  The two agree for any bounds
and either direction: the size is the number of steps that visit an index, the last
of them has the number one less than the size, and a walk between the clamped bounds
of an axis visits indices of the axis only.
-/

namespace Hyperslab
namespace Interval

variable {i : Interval}

/-- The distance divided by the step and rounded up. -/
def quotient (i : Interval) : Int :=
  (i.stop - i.start).fdiv i.step + if (i.stop - i.start).fmod i.step = 0 then 0 else 1

theorem size?_eq_ok (hstep : i.step ≠ 0) : i.size? = .ok i.size :=
  if_neg fun h => hstep h.1

theorem size_pos_iff (hstep : i.step ≠ 0) : 0 < i.size ↔ i.Visits 0 := lt_size_iff hstep 0

theorem size_eq_zero_of_not (hstep : i.step ≠ 0) (h : ¬i.Visits 0) : i.size = 0 :=
  Nat.eq_zero_of_not_pos fun hpos => h ((size_pos_iff hstep).mp hpos)

/-- The comparison of the two signs asks whether the walk starts before `stop`. -/
theorem visits_zero_iff (hstep : i.step ≠ 0) :
    i.Visits 0 ↔ i.stop - i.start ≠ 0 ∧ (i.stop - i.start < 0 ↔ i.step < 0) := by
  rw [Visits, index, Int.mul_zero, Int.add_zero]
  split <;> omega

/-- The size is the quotient itself wherever it is taken, so no negative number is cut to zero. -/
theorem size_eq_quotient (hstep : i.step ≠ 0) (h : i.Visits 0) : i.size = i.quotient := by
  have hpos : 0 < i.size := (size_pos_iff hstep).mpr h
  obtain ⟨h0, hs⟩ := (visits_zero_iff hstep).mp h
  rw [size_eq_ceil h0 hs] at hpos ⊢
  rw [quotient]
  omega

theorem encard_visits (hstep : i.step ≠ 0) : {k : Nat | i.Visits k}.encard = i.size := by
  have hvisits : {k : Nat | i.Visits k} = Finset.range i.size := by
    ext k
    rw [Set.mem_ofPred_eq, ← lt_size_iff hstep, Finset.coe_range, Set.mem_Iio]
  rw [hvisits, Set.encard_coe_eq_coe_finsetCard, Finset.card_range]

theorem visits_last (hstep : i.step ≠ 0) (h : 0 < i.size) : i.Visits (i.size - 1) := by
  have hlast := (lt_size_iff hstep (i.size - 1)).mp (by omega)
  rwa [Int.natCast_sub h] at hlast

theorem not_visits_size (hstep : i.step ≠ 0) : ¬i.Visits i.size :=
  fun h => Nat.lt_irrefl i.size ((lt_size_iff hstep i.size).mpr h)

/-- A walk between bounds that suit an axis visits indices of the axis only. -/
theorem Fits.visits_mem {extent : Nat} (h : i.Fits extent) {k : Nat} (hk : i.Visits k) :
    0 ≤ i.index k ∧ i.index k < extent :=
  h.index_mem (Int.natCast_nonneg k) (Int.ofNat_lt.mpr ((lt_size_iff h.step k).mpr hk))

/-- The size counts the steps after which a walk is before `stop`, whatever its bounds, and with
clamped bounds each of these steps is at an index of the axis. -/
theorem size_counts_visits {step : Int} (hstep : step ≠ 0) :
    (∀ start stop : Int, let i : Interval := ⟨start, stop, step⟩
      i.size? = .ok i.size ∧ {k : Nat | i.Visits k}.encard = i.size ∧
        -- The division and the comparison of signs before it.
        (i.Visits 0 → i.size = i.quotient) ∧ (¬i.Visits 0 → i.size = 0) ∧
        -- The last step before `stop`, and the next one.
        (0 < i.size → i.Visits (i.size - 1)) ∧ ¬i.Visits i.size) ∧
    ∀ (extent : Nat) (first last : Option Int), let i := ofBounds extent first last step
      ∀ k : Nat, i.Visits k → 0 ≤ i.index k ∧ i.index k < extent := by
  refine ⟨fun start stop => ?_, fun extent first last => ?_⟩
  · intro i
    have hi : i.step ≠ 0 := hstep
    exact ⟨size?_eq_ok hi, encard_visits hi, size_eq_quotient hi, size_eq_zero_of_not hi,
      visits_last hi, not_visits_size hi⟩
  · intro i k hk
    have hfits : i.Fits extent := ofBounds_fits hstep
    exact hfits.visits_mem hk

end Interval

namespace Sample

/-- Backward from eight to minus twenty, and over an axis of five from past its end. -/
theorem size_counts_visits_backward : (-3 : Int) ≠ 0 ∧
    {k : Nat | Interval.Visits ⟨8, -20, -3⟩ k}.encard = 10 ∧
      Interval.Visits ⟨8, -20, -3⟩ 9 ∧ ¬Interval.Visits ⟨8, -20, -3⟩ 10 ∧
    Interval.ofBounds 5 (some 9) none (-3) = ⟨4, -1, -3⟩ ∧
      ∀ k : Nat, Interval.Visits ⟨4, -1, -3⟩ k →
        0 ≤ Interval.index ⟨4, -1, -3⟩ k ∧ Interval.index ⟨4, -1, -3⟩ k < 5 := by
  have hstep : (-3 : Int) ≠ 0 := by decide
  have hsize : Interval.size ⟨8, -20, -3⟩ = 10 := by decide
  obtain ⟨hany, hclamped⟩ := Interval.size_counts_visits hstep
  obtain ⟨_, hcount, _, _, hlast, hnext⟩ := hany 8 (-20)
  rw [hsize] at hcount hlast hnext
  exact ⟨hstep, hcount, hlast (by decide), hnext, rfl, hclamped 5 (some 9) none⟩

end Sample

end Hyperslab
