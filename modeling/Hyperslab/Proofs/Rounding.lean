import Hyperslab.Number.Binary
import Mathlib.Algebra.Order.Field.Power
import Mathlib.Algebra.Order.Field.Rat
import Mathlib.Tactic.FieldSimp
import Mathlib.Tactic.Linarith
import Mathlib.Tactic.NormNum
import Mathlib.Tactic.Ring

/-!
# Rounding to a format

A format holds a finite number in one form.  The numbers that are rounded to it lie
around it up to half-way to its neighbours, and each of them is written as the
pattern of that form.  So a number that a format holds is written without a change.
-/

namespace Hyperslab
namespace Number

/-! ## Powers -/

theorem twoTo_pos (n : ℕ) : 0 < twoTo n := Nat.pow_pos (by decide)

theorem twoTo_add (m n : ℕ) : twoTo (m + n) = twoTo m * twoTo n := Nat.pow_add 2 m n

@[simp] theorem cast_twoTo (n : ℕ) : ((twoTo n : ℕ) : ℚ) = (2 : ℚ) ^ (n : ℤ) := by
  rw [twoTo, Nat.pow_eq, Nat.cast_pow, Nat.cast_ofNat, zpow_natCast]

/-- An exponent is cut into its positive and its negative part. -/
theorem zpow_toNat_div {b : ℚ} (hb : b ≠ 0) (p : ℤ) :
    b ^ (p.toNat : ℤ) / b ^ ((-p).toNat : ℤ) = b ^ p := by
  rw [← zpow_sub₀ hb]
  congr 1
  omega

theorem two_zpow_pos (p : ℤ) : (0 : ℚ) < 2 ^ p := zpow_pos (by norm_num) p

theorem two_zpow_succ (p : ℤ) : (2 : ℚ) ^ (p + 1) = 2 * 2 ^ p := by
  rw [zpow_add_one₀ (by norm_num), mul_comm]

theorem two_zpow_le {p q : ℤ} : (2 : ℚ) ^ p ≤ 2 ^ q ↔ p ≤ q :=
  zpow_le_zpow_iff_right₀ (by norm_num)

theorem two_zpow_lt {p q : ℤ} : (2 : ℚ) ^ p < 2 ^ q ↔ p < q :=
  zpow_lt_zpow_iff_right₀ (by norm_num)

/-! ## Whole numbers -/

theorem roundDiv_eq {num den c : ℕ} (hden : 0 < den) (low : 2 * (c * den) ≤ 2 * num + den)
    (high : 2 * num ≤ 2 * (c * den) + den)
    (tie : 2 * (c * den) = 2 * num + den ∨ 2 * num = 2 * (c * den) + den → c % 2 = 0) :
    roundDiv num den = c := by
  have hdiv := Nat.div_add_mod num den
  have hmod := Nat.mod_lt num hden
  unfold roundDiv
  generalize num / den = d at *
  generalize num % den = r at *
  have hlow : c ≤ d + 1 := by
    by_contra! h
    have := Nat.mul_le_mul_right den (show d + 2 ≤ c from h)
    rw [Nat.add_mul, Nat.mul_comm d] at this
    omega
  have hhigh : d ≤ c := by
    by_contra! h
    have := Nat.mul_le_mul_right den (show c + 1 ≤ d from h)
    rw [Nat.add_mul, Nat.mul_comm d] at this
    omega
  obtain rfl | rfl : c = d ∨ c = d + 1 := by omega
  · rw [Nat.mul_comm den] at hdiv
    dsimp only
    split_ifs <;> omega
  · rw [Nat.mul_comm den] at hdiv
    rw [Nat.add_mul] at low tie
    dsimp only
    split_ifs <;> omega

/-- A quotient no more than a half away from a whole number, and from an odd one less than that,
is rounded to it. -/
theorem roundDiv_eq_of_abs {num den c : ℕ} (hden : 0 < den)
    (h : |(num : ℚ) / den - c| ≤ 1 / 2) (tie : |(num : ℚ) / den - c| = 1 / 2 → c % 2 = 0) :
    roundDiv num den = c := by
  have hden' : (0 : ℚ) < den := Nat.cast_pos.mpr hden
  have hnum : (num : ℚ) = num / den * den := by field_simp
  rw [abs_le] at h
  refine roundDiv_eq hden ?_ ?_ fun hends => tie ?_
  · have : (2 : ℚ) * (c * den) ≤ 2 * num + den := by nlinarith [h.1]
    exact_mod_cast this
  · have : (2 : ℚ) * num ≤ 2 * (c * den) + den := by nlinarith [h.2]
    exact_mod_cast this
  · rcases hends with h | h
    · have h : (2 : ℚ) * (c * den) = 2 * num + den := by exact_mod_cast h
      have : (num : ℚ) / den - c = -(1 / 2) := by
        field_simp
        linarith
      rw [this]
      norm_num
    · have h : (2 : ℚ) * num = 2 * (c * den) + den := by exact_mod_cast h
      have : (num : ℚ) / den - c = 1 / 2 := by
        field_simp
        linarith
      rw [this]
      norm_num

theorem roundDiv_bounds (num : ℕ) {den : ℕ} (hden : 0 < den) :
    2 * (roundDiv num den * den) ≤ 2 * num + den ∧
      2 * num ≤ 2 * (roundDiv num den * den) + den := by
  have hdiv := Nat.div_add_mod num den
  have hmod := Nat.mod_lt num hden
  unfold roundDiv
  generalize num / den = d at *
  generalize num % den = r at *
  rw [Nat.mul_comm den] at hdiv
  have hsucc : (d + 1) * den = d * den + den := Nat.succ_mul d den
  dsimp only
  split_ifs with hless hmore
  · omega
  · omega
  · rcases Nat.mod_two_eq_zero_or_one d with h | h
    · rw [h, Nat.add_zero]
      omega
    · rw [h]
      omega

/-- A quotient is rounded to a whole number that is nearest to it. -/
theorem abs_sub_roundDiv_le (num : ℕ) {den : ℕ} (hden : 0 < den) (c : ℤ) :
    |(num : ℚ) / den - roundDiv num den| ≤ |(num : ℚ) / den - c| := by
  have hden' : (0 : ℚ) < den := Nat.cast_pos.mpr hden
  obtain ⟨hlow, hhigh⟩ := roundDiv_bounds num hden
  generalize roundDiv num den = n at *
  have hlow : (2 : ℚ) * (n * den) ≤ 2 * num + den := by exact_mod_cast hlow
  have hhigh : (2 : ℚ) * num ≤ 2 * (n * den) + den := by exact_mod_cast hhigh
  have hhalf : |(num : ℚ) / den - n| ≤ 1 / 2 := by
    have hnum : (num : ℚ) = num / den * den := by field_simp
    rw [abs_le]
    constructor
    · by_contra! h
      nlinarith
    · by_contra! h
      nlinarith
  by_cases hc : c = n
  · rw [hc, Int.cast_natCast]
  · have hapart : (1 : ℚ) ≤ |(n : ℚ) - c| := by
      have : (1 : ℤ) ≤ |(n : ℤ) - c| := Int.one_le_abs (by omega)
      exact_mod_cast this
    have htriangle : |(n : ℚ) - c| ≤ |(num : ℚ) / den - n| + |(num : ℚ) / den - c| := by
      rw [abs_sub_comm ((num : ℚ) / den) n]
      exact abs_sub_le _ _ _
    linarith

/-! ## Logarithms -/

theorem two_zpow_log2 {n : ℕ} (hn : 0 < n) :
    (2 : ℚ) ^ (n.log2 : ℤ) ≤ n ∧ (n : ℚ) < 2 ^ ((n.log2 : ℤ) + 1) := by
  constructor
  · have := Nat.log2_self_le hn.ne'
    rw [zpow_natCast]
    exact_mod_cast this
  · have : n < 2 ^ (n.log2 + 1) := Nat.lt_log2_self
    rw [show ((n.log2 : ℤ) + 1) = ((n.log2 + 1 : ℕ) : ℤ) by push_cast; rfl, zpow_natCast]
    exact_mod_cast this

theorem floorLog2_spec {num den : ℕ} (hnum : 0 < num) (hden : 0 < den) :
    (2 : ℚ) ^ floorLog2 num den ≤ num / den ∧ (num : ℚ) / den < 2 ^ (floorLog2 num den + 1) := by
  obtain ⟨hnlow, hnhigh⟩ := two_zpow_log2 hnum
  obtain ⟨hdlow, hdhigh⟩ := two_zpow_log2 hden
  have hden' : (0 : ℚ) < den := Nat.cast_pos.mpr hden
  unfold floorLog2
  dsimp only
  generalize (num.log2 : ℤ) = a at *
  generalize (den.log2 : ℤ) = b at *
  have hhigh : (num : ℚ) / den < 2 ^ (a - b + 1) := by
    rw [div_lt_iff₀ hden']
    calc (num : ℚ) < 2 ^ (a - b + 1) * 2 ^ b := by
          rwa [← zpow_add₀ (by norm_num), show a - b + 1 + b = a + 1 by omega]
      _ ≤ 2 ^ (a - b + 1) * den := by
          exact mul_le_mul_of_nonneg_left hdlow (two_zpow_pos _).le
  have hlow : (2 : ℚ) ^ (a - b - 1) ≤ num / den := by
    rw [le_div_iff₀ hden']
    calc (2 : ℚ) ^ (a - b - 1) * den ≤ 2 ^ (a - b - 1) * 2 ^ (b + 1) :=
          mul_le_mul_of_nonneg_left hdhigh.le (two_zpow_pos _).le
      _ = 2 ^ a := by rw [← zpow_add₀ (by norm_num), show a - b - 1 + (b + 1) = a by omega]
      _ ≤ num := hnlow
  have htest : den * twoTo (a - b).toNat ≤ num * twoTo (-(a - b)).toNat ↔
      (2 : ℚ) ^ (a - b) ≤ num / den := by
    rw [← Nat.cast_le (α := ℚ), Nat.cast_mul, Nat.cast_mul, cast_twoTo, cast_twoTo,
      le_div_iff₀ hden', ← zpow_toNat_div (by norm_num) (a - b), div_mul_eq_mul_div,
      div_le_iff₀ (two_zpow_pos _), mul_comm (den : ℚ)]
  split_ifs with h
  · exact ⟨htest.mp h, hhigh⟩
  · refine ⟨hlow, ?_⟩
    rw [Int.sub_add_cancel]
    exact not_le.mp fun hle => h (htest.mpr hle)

theorem floorLog2_eq {num den : ℕ} {k : ℤ} (hnum : 0 < num) (hden : 0 < den)
    (low : (2 : ℚ) ^ k ≤ num / den) (high : (num : ℚ) / den < 2 ^ (k + 1)) :
    floorLog2 num den = k := by
  obtain ⟨hlow, hhigh⟩ := floorLog2_spec hnum hden
  have h₁ := two_zpow_lt.mp (hlow.trans_lt high)
  have h₂ := two_zpow_lt.mp (low.trans_lt hhigh)
  omega

/-! ## Formats -/

namespace Format

variable {f : Format} {m : ℕ} {p : ℤ}

/-- The pattern of `m * 2 ^ p` without a sign. -/
def pattern (f : Format) (m : ℕ) (p : ℤ) : ℕ := m + (p - f.minPower).toNat * twoTo f.fraction

/-- The form in which a format holds a number: its last bit is as fine as it can be. -/
structure Holds (f : Format) (m : ℕ) (p : ℤ) : Prop where
  lt : m < 2 * twoTo f.fraction
  least : f.minPower ≤ p
  normal : p = f.minPower ∨ twoTo f.fraction ≤ m
  finite : f.pattern m p < f.infinity

/-- How far the numbers rounded to `m * 2 ^ p` reach down, in units of its last bit. -/
def reach (f : Format) (m : ℕ) (p : ℤ) : ℚ :=
  if m = twoTo f.fraction ∧ f.minPower < p then 1 / 4 else 1 / 2

/-- The numbers that are rounded to `m * 2 ^ p`; an even significand wins the ends. -/
structure Rounds (f : Format) (m : ℕ) (p : ℤ) (x : ℚ) : Prop where
  low : (m - f.reach m p) * 2 ^ p ≤ x
  high : x ≤ (m + 1 / 2) * 2 ^ p
  tie : x = (m - f.reach m p) * 2 ^ p ∨ x = (m + 1 / 2) * 2 ^ p → m % 2 = 0

/-- A significand that is rounded up to the next power of two carries into the exponent. -/
theorem pattern_carry (h : f.minPower ≤ p) :
    f.pattern (2 * twoTo f.fraction) p = f.pattern (twoTo f.fraction) (p + 1) := by
  rw [pattern, pattern, show (p + 1 - f.minPower).toNat = (p - f.minPower).toNat + 1 by omega]
  ring

theorem reach_pos (f : Format) (m : ℕ) (p : ℤ) : 0 < f.reach m p := by
  unfold reach
  split <;> norm_num

theorem reach_le (f : Format) (m : ℕ) (p : ℤ) : f.reach m p ≤ 1 / 2 := by
  unfold reach
  split <;> norm_num

/-- A number is rounded to itself. -/
theorem rounds_self (f : Format) (m : ℕ) (p : ℤ) : f.Rounds m p (m * 2 ^ p) := by
  have hpos := two_zpow_pos p
  have hreach := mul_pos (f.reach_pos m p) hpos
  refine ⟨?_, ?_, fun h => ?_⟩
  · rw [sub_mul]
    linarith
  · rw [add_mul]
    linarith
  · rw [sub_mul, add_mul] at h
    rcases h with h | h <;> linarith

/-- The quotient that is rounded to a significand, for a given power of its last bit. -/
theorem cast_scaled {num den : ℕ} (q : ℤ) :
    ((num * twoTo (-q).toNat : ℕ) : ℚ) / ((den * twoTo q.toNat : ℕ) : ℚ) =
      num / den / 2 ^ q := by
  rw [Nat.cast_mul, Nat.cast_mul, cast_twoTo, cast_twoTo, ← zpow_toNat_div (by norm_num) q]
  have h₁ := (two_zpow_pos (q.toNat : ℤ)).ne'
  have h₂ := (two_zpow_pos ((-q).toNat : ℤ)).ne'
  field_simp

/-- A significand that fits the power found for it, or is rounded up to the next power of two, is
written as a pattern. -/
theorem roundQuotient_of_power {num den c : ℕ} {q : ℤ} (hnum : 0 < num) (hden : 0 < den)
    (hpower : max f.minPower (floorLog2 num den - f.fraction) = q)
    (hround : |(num : ℚ) / den / 2 ^ q - c| ≤ 1 / 2)
    (tie : |(num : ℚ) / den / 2 ^ q - c| = 1 / 2 → c % 2 = 0) :
    f.roundQuotient num den = min f.infinity (f.pattern c q) := by
  have hsig := @roundDiv_eq_of_abs (num * twoTo (-q).toNat) (den * twoTo q.toNat) c
    (Nat.mul_pos hden (twoTo_pos _))
  rw [cast_scaled] at hsig
  rw [roundQuotient, if_neg hnum.ne']
  dsimp only
  rw [hpower, hsig hround tie, pattern]

namespace Rounds

variable {x : ℚ}

theorem pos (hx : f.Rounds m p x) (hm : 0 < m) : 0 < x := by
  have hm' : (1 : ℚ) ≤ m := Nat.one_le_cast.mpr hm
  have hreach := f.reach_le m p
  exact lt_of_lt_of_le (mul_pos (by linarith) (two_zpow_pos p)) hx.low

/-- Rounding to a multiple of the last bit gives the significand, unless the number is below a power
of two where the last bit of its neighbours below is finer. -/
theorem abs_div_sub_le (hx : f.Rounds m p x) :
    |x / 2 ^ p - m| ≤ 1 / 2 ∧ (|x / 2 ^ p - m| = 1 / 2 → m % 2 = 0) := by
  have hpos := two_zpow_pos p
  have hreach := f.reach_le m p
  have hlow : (m : ℚ) - f.reach m p ≤ x / 2 ^ p := (le_div_iff₀ hpos).mpr hx.low
  have hhigh : x / 2 ^ p ≤ (m : ℚ) + 1 / 2 := (div_le_iff₀ hpos).mpr hx.high
  refine ⟨abs_le.mpr ⟨by linarith, by linarith⟩, fun h => hx.tie ?_⟩
  rcases (abs_eq (by norm_num)).mp h with h | h
  · exact .inr ((div_eq_iff hpos.ne').mp (by linarith))
  · have : x / 2 ^ p = m - f.reach m p := by linarith
    exact .inl ((div_eq_iff hpos.ne').mp this)

end Rounds

variable {num den : ℕ}

/-- Around a number whose last bit is as coarse as the rounded quotient's. -/
theorem roundQuotient_eq_of_le (h : f.Holds m p) (hnum : 0 < num) (hden : 0 < den)
    (hx : f.Rounds m p (num / den))
    (hlow : p = f.minPower ∨ (2 : ℚ) ^ (p + f.fraction) ≤ num / den) :
    f.roundQuotient num den = f.pattern m p := by
  have hpow := cast_twoTo f.fraction
  have hhigh : (num : ℚ) / den < 2 ^ (p + f.fraction + 1) := by
    have hm : (m : ℚ) + 1 ≤ 2 * 2 ^ (f.fraction : ℤ) := by
      rw [← hpow]
      exact_mod_cast h.lt
    calc (num : ℚ) / den ≤ (m + 1 / 2) * 2 ^ p := hx.high
      _ < 2 * 2 ^ (f.fraction : ℤ) * 2 ^ p :=
          mul_lt_mul_of_pos_right (by linarith) (two_zpow_pos p)
      _ = 2 ^ (p + f.fraction + 1) := by
          rw [two_zpow_succ, zpow_add₀ (by norm_num)]
          ring
  have hpower : max f.minPower (floorLog2 num den - f.fraction) = p := by
    obtain ⟨hfloor, -⟩ := floorLog2_spec hnum hden
    have := two_zpow_lt.mp (hfloor.trans_lt hhigh)
    rcases hlow with rfl | hlow
    · omega
    · have := floorLog2_eq hnum hden hlow hhigh
      have := h.least
      omega
  obtain ⟨habs, htie⟩ := hx.abs_div_sub_le
  rw [roundQuotient_of_power hnum hden hpower habs htie, Nat.min_eq_right h.finite.le]

/-- Only below a power of two are there numbers with a finer last bit that are rounded to one. -/
theorem significand_eq_of_lt {x : ℚ} (h : f.Holds m p) (hx : f.Rounds m p x) (hp : p ≠ f.minPower)
    (hlt : x < 2 ^ (f.fraction : ℤ) * 2 ^ p) : m = twoTo f.fraction := by
  refine Nat.le_antisymm ?_ (h.normal.resolve_left hp)
  have hlow := (mul_le_mul_of_nonneg_right (sub_le_sub_left (f.reach_le m p) (m : ℚ))
    (two_zpow_pos p).le).trans hx.low
  have := lt_of_mul_lt_mul_right (hlow.trans_lt hlt) (two_zpow_pos p).le
  have : (m : ℚ) < (twoTo f.fraction + 1 : ℕ) := by
    push_cast [cast_twoTo f.fraction] at this ⊢
    linarith
  exact Nat.le_of_lt_succ (Nat.cast_lt.mp this)

/-- Below a power of two the last bit of the quotient is finer, and rounding carries. -/
theorem roundQuotient_eq_of_lt (h : f.Holds m p) (hnum : 0 < num) (hden : 0 < den)
    (hx : f.Rounds m p (num / den)) (hp : p ≠ f.minPower)
    (hlt : (num : ℚ) / den < 2 ^ (p + f.fraction)) :
    f.roundQuotient num den = f.pattern m p := by
  have hpos := two_zpow_pos (p - 1)
  have hdouble : (2 : ℚ) ^ p = 2 * 2 ^ (p - 1) := by
    rw [← two_zpow_succ, Int.sub_add_cancel]
  have hpow := cast_twoTo f.fraction
  have hone : (1 : ℚ) ≤ 2 ^ (f.fraction : ℤ) := by
    rw [← hpow]
    exact_mod_cast twoTo_pos f.fraction
  rw [zpow_add₀ (by norm_num), mul_comm] at hlt
  obtain rfl := significand_eq_of_lt h hx hp hlt
  have hp' : f.minPower < p := lt_of_le_of_ne h.least (Ne.symm hp)
  have hreach : f.reach (twoTo f.fraction) p = 1 / 4 := if_pos ⟨rfl, hp'⟩
  have hlow := hx.low
  rw [hreach, hdouble, hpow] at hlow
  rw [hdouble] at hlt
  generalize hquot : (num : ℚ) / den = x at hlow hlt
  have hlow' : 2 * 2 ^ (f.fraction : ℤ) - 1 / 2 ≤ x / 2 ^ (p - 1) := by
    rw [le_div_iff₀ hpos]
    linarith
  have hhigh' : x / 2 ^ (p - 1) < 2 * 2 ^ (f.fraction : ℤ) := by
    rw [div_lt_iff₀ hpos]
    linarith
  have hpower : max f.minPower (floorLog2 num den - f.fraction) = p - 1 := by
    have : floorLog2 num den = p - 1 + f.fraction := by
      refine floorLog2_eq hnum hden ?_ ?_
      · rw [hquot, zpow_add₀ (by norm_num), mul_comm, ← le_div_iff₀ hpos]
        linarith
      · rw [hquot, two_zpow_succ, zpow_add₀ (by norm_num), mul_left_comm, mul_comm,
          ← div_lt_iff₀ hpos]
        exact hhigh'
    omega
  have hcarry := pattern_carry (f := f) (p := p - 1) (by omega)
  rw [Int.sub_add_cancel] at hcarry
  rw [roundQuotient_of_power (c := 2 * twoTo f.fraction) hnum hden hpower, hcarry,
    Nat.min_eq_right h.finite.le]
  · rw [hquot, Nat.cast_mul, hpow, Nat.cast_ofNat]
    exact abs_le.mpr ⟨by linarith, by linarith⟩
  · exact fun _ => Nat.mul_mod_right 2 _

/-- Every number around one that a format holds is written as the pattern of that one. -/
theorem roundQuotient_eq (h : f.Holds m p) (hnum : 0 < num) (hden : 0 < den)
    (hx : f.Rounds m p (num / den)) : f.roundQuotient num den = f.pattern m p := by
  by_cases hp : p = f.minPower
  · exact roundQuotient_eq_of_le h hnum hden hx (.inl hp)
  · rcases le_or_gt ((2 : ℚ) ^ (p + f.fraction)) (num / den) with hle | hlt
    · exact roundQuotient_eq_of_le h hnum hden hx (.inr hle)
    · exact roundQuotient_eq_of_lt h hnum hden hx hp hlt

end Format

end Number
end Hyperslab
