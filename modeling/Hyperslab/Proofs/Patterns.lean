import Hyperslab.Element
import Hyperslab.Proofs.Rounding

/-!
# Patterns and the amounts they stand for

A pattern stands for an amount: a rational number, an infinity or no number.  A
format holds each number in one form, whose pattern is read back as that form, so an
amount that a format holds is kept when it is written.
-/

namespace Hyperslab
namespace Number

/-- What an element counts, without the sign of zero. -/
inductive Amount where
  | nan
  | infinite (negative : Bool)
  | number (q : ℚ)
  deriving DecidableEq

/-- What a pattern counts. -/
def Reading.amount : Reading → Amount
  | .nan => .nan
  | .infinite negative => .infinite negative
  | .finite negative m p => .number ((if negative then -1 else 1) * (m * (2 : ℚ) ^ p))

namespace Format

variable {f : Format} {m : ℕ} {p : ℤ} {negative : Bool} {bits : ℕ}

/-! ## The fields of a pattern -/

theorem infinity_lt (f : Format) : f.infinity < f.signBit := by
  have h : f.signBit = twoTo f.exponent * twoTo f.fraction := by
    rw [signBit, twoTo_add, Nat.mul_comm]
  rw [h, infinity]
  exact Nat.mul_lt_mul_of_pos_right (Nat.sub_lt (twoTo_pos _) Nat.one_pos) (twoTo_pos _)

theorem withSign_mod {magnitude : ℕ} (h : magnitude < f.signBit) :
    f.withSign negative magnitude % f.signBit = magnitude := by
  cases negative
  · exact Nat.mod_eq_of_lt h
  · rw [withSign, if_pos rfl, Nat.add_mod_left, Nat.mod_eq_of_lt h]

theorem signBit_le_withSign {magnitude : ℕ} (h : magnitude < f.signBit) :
    decide (f.signBit ≤ f.withSign negative magnitude) = negative := by
  cases negative
  · exact decide_eq_false (Nat.not_le.mpr h)
  · exact decide_eq_true (Nat.le_add_right _ _)

/-- The two fields of a pattern. -/
theorem pattern_fields (h : f.Holds m p) :
    (f.pattern m p / twoTo f.fraction = 0 ∧ p = f.minPower ∧
      f.pattern m p % twoTo f.fraction = m) ∨
    (f.pattern m p / twoTo f.fraction = (p - f.minPower).toNat + 1 ∧
      twoTo f.fraction + f.pattern m p % twoTo f.fraction = m) := by
  have hpos := twoTo_pos f.fraction
  have hlt := h.lt
  rcases Nat.lt_or_ge m (twoTo f.fraction) with hm | hm
  · obtain rfl : p = f.minPower := h.normal.resolve_right (Nat.not_le.mpr hm)
    have hpattern : f.pattern m f.minPower = m := by simp [pattern]
    rw [hpattern]
    exact .inl ⟨Nat.div_eq_of_lt hm, rfl, Nat.mod_eq_of_lt hm⟩
  · have hpattern : f.pattern m p =
        (m - twoTo f.fraction) + ((p - f.minPower).toNat + 1) * twoTo f.fraction := by
      rw [pattern, Nat.add_mul]
      omega
    have hrest : m - twoTo f.fraction < twoTo f.fraction := by omega
    rw [hpattern, Nat.add_mul_div_right _ _ hpos, Nat.add_mul_mod_self_right,
      Nat.div_eq_of_lt hrest, Nat.mod_eq_of_lt hrest]
    exact .inr ⟨by omega, by omega⟩

theorem read_pattern (h : f.Holds m p) :
    f.read (f.withSign negative (f.pattern m p)) = .finite negative m p := by
  have hfinite := h.finite
  have hlt := hfinite.trans f.infinity_lt
  have hleast := h.least
  unfold read
  dsimp only
  rw [withSign_mod hlt, signBit_le_withSign hlt, if_neg (by omega), if_neg (by omega)]
  rcases pattern_fields h with ⟨hfield, rfl, hrest⟩ | ⟨hfield, hrest⟩
  · rw [if_pos hfield, hrest]
  · rw [if_neg (by omega), hfield, hrest]
    congr 1
    omega

/-- A finite number is read in the form in which the format holds it. -/
theorem read_eq_finite (h : f.read bits = .finite negative m p) :
    f.Holds m p ∧ bits % f.signBit = f.pattern m p ∧ decide (f.signBit ≤ bits) = negative := by
  unfold read at h
  dsimp only at h
  generalize bits % f.signBit = magnitude at *
  have hpos := twoTo_pos f.fraction
  have hdiv := Nat.div_add_mod magnitude (twoTo f.fraction)
  have hmod := Nat.mod_lt magnitude hpos
  rw [Nat.mul_comm] at hdiv
  generalize magnitude / twoTo f.fraction = field at *
  generalize magnitude % twoTo f.fraction = rest at *
  split_ifs at h with hnan hinfinite hfield
  · obtain ⟨rfl, rfl, rfl⟩ := Reading.finite.inj h
    rw [hfield, Nat.zero_mul, Nat.zero_add] at hdiv
    have hpattern : f.pattern rest f.minPower = rest := by simp [pattern]
    exact ⟨⟨by omega, le_refl _, .inl rfl, by omega⟩, by omega, rfl⟩
  · obtain ⟨rfl, rfl, rfl⟩ := Reading.finite.inj h
    have hpattern : f.pattern (twoTo f.fraction + rest) (f.minPower + field - 1) = magnitude := by
      obtain ⟨k, rfl⟩ := Nat.exists_eq_succ_of_ne_zero hfield
      rw [pattern, show (f.minPower + (k.succ : ℕ) - 1 - f.minPower).toNat = k by omega, ← hdiv,
        Nat.succ_mul]
      omega
    exact ⟨⟨by omega, by omega, .inr (Nat.le_add_right _ _), by omega⟩, hpattern.symm, rfl⟩

theorem read_infinity : f.read (f.withSign negative f.infinity) = .infinite negative := by
  unfold read
  dsimp only
  rw [withSign_mod f.infinity_lt, signBit_le_withSign f.infinity_lt, if_neg (lt_irrefl _),
    if_pos rfl]

/-! ## Amounts that a format holds -/

/-- What a format can hold without a change. -/
def Fits (f : Format) : Reading → Prop
  | .finite _ m p => m = 0 ∨ ∃ n q, f.Holds n q ∧ (n : ℚ) * 2 ^ q = m * 2 ^ p
  | _ => True

theorem fits_read (f : Format) (bits : ℕ) : f.Fits (f.read bits) := by
  cases h : f.read bits with
  | nan => trivial
  | infinite negative => trivial
  | finite negative m p => exact .inr ⟨m, p, (read_eq_finite h).1, rfl⟩

/-- A number that is neither too fine nor too large can be brought to the form in which a format
holds it, one bit after the other. -/
theorem exists_holds (hlt : m < 2 * twoTo f.fraction) (hleast : f.minPower ≤ p)
    (hmost : (p - f.minPower).toNat + 2 < twoTo f.exponent) :
    ∃ n q, f.Holds n q ∧ (n : ℚ) * 2 ^ q = m * 2 ^ p := by
  generalize hk : (p - f.minPower).toNat = k at hmost
  induction k generalizing m p with
  | zero =>
    obtain rfl : p = f.minPower := by omega
    refine ⟨m, _, ⟨hlt, le_refl _, .inl rfl, ?_⟩, rfl⟩
    have := Nat.mul_le_mul_right (twoTo f.fraction) (show 2 ≤ twoTo f.exponent - 1 by omega)
    simp only [pattern, infinity, Int.sub_self, Int.toNat_zero, Nat.zero_mul]
    omega
  | succ k ih =>
    rcases Nat.lt_or_ge m (twoTo f.fraction) with hm | hm
    · obtain ⟨n, q, hnq, heq⟩ := ih (m := 2 * m) (p := p - 1) (by omega) (by omega) (by omega)
        (by omega)
      refine ⟨n, q, hnq, heq.trans ?_⟩
      have hdouble := two_zpow_succ (p - 1)
      rw [Int.sub_add_cancel] at hdouble
      rw [hdouble]
      push_cast
      ring
    · refine ⟨m, p, ⟨hlt, hleast, .inr hm, ?_⟩, rfl⟩
      have := Nat.mul_le_mul_right (twoTo f.fraction)
        (show k + 1 + 2 ≤ twoTo f.exponent - 1 by omega)
      rw [Nat.add_mul] at this
      rw [pattern, infinity, hk]
      omega

/-- A size that a format holds is written as its pattern. -/
theorem roundQuotient_of_holds {num den : ℕ} (h : f.Holds m p) (hm : 0 < m) (hden : 0 < den)
    (hvalue : (num : ℚ) / den = m * 2 ^ p) : f.roundQuotient num den = f.pattern m p := by
  have hx : f.Rounds m p (num / den) := by
    rw [hvalue]
    exact f.rounds_self m p
  have hnum : 0 < num := by
    refine Nat.pos_of_ne_zero fun h0 => (hx.pos hm).ne' ?_
    rw [h0, Nat.cast_zero, zero_div]
  exact roundQuotient_eq h hnum hden hx

/-- The value of a size, as the quotient from which it is written. -/
theorem cast_size (m : ℕ) (p : ℤ) :
    ((m * twoTo p.toNat : ℕ) : ℚ) / (twoTo (-p).toNat : ℕ) = m * 2 ^ p := by
  rw [Nat.cast_mul, cast_twoTo, cast_twoTo, mul_div_assoc, zpow_toNat_div (by norm_num)]

/-- Writing what a format can hold keeps the amount. -/
theorem amount_read_write (hsize : 0 < f.infinity) (hnan : f.read f.quietNan = .nan) {r : Reading}
    (h : f.Fits r) : (f.read (f.write r)).amount = r.amount := by
  cases r with
  | nan =>
    rw [write, hnan]
  | infinite negative =>
    rw [write, read_infinity]
  | finite negative m p =>
    rw [write]
    have hvalue := cast_size m p
    rcases Nat.eq_zero_or_pos m with rfl | hm
    · have hzero : f.Holds 0 f.minPower :=
        ⟨Nat.mul_pos two_pos (twoTo_pos _), le_refl _, .inl rfl, by simpa [pattern]⟩
      have hread : f.read (f.withSign negative (f.pattern 0 f.minPower)) =
          .finite negative 0 f.minPower := read_pattern hzero
      rw [pattern, Int.sub_self, Int.toNat_zero, Nat.zero_mul, Nat.add_zero] at hread
      rw [Nat.zero_mul, roundQuotient, if_pos rfl, hread]
      simp [Reading.amount]
    · obtain ⟨n, q, hholds, heq⟩ := h.resolve_left hm.ne'
      have hn : 0 < n := by
        refine Nat.pos_of_ne_zero fun h0 => ?_
        rw [h0, Nat.cast_zero, zero_mul] at heq
        exact (mul_pos (Nat.cast_pos.mpr hm) (two_zpow_pos p)).ne heq
      rw [roundQuotient_of_holds hholds hn (twoTo_pos _) (hvalue.trans heq.symm),
        read_pattern hholds]
      simp only [Reading.amount, heq]

/-! ## The nearest number -/

/-- A rounded significand may have been carried to the next power of two. -/
theorem exists_holds_of_carry {c : ℕ} {q : ℤ} (hc : c ≤ 2 * twoTo f.fraction)
    (hleast : f.minPower ≤ q) (hnormal : q = f.minPower ∨ twoTo f.fraction ≤ c)
    (hfinite : f.pattern c q < f.infinity) :
    ∃ m p, f.Holds m p ∧ f.pattern m p = f.pattern c q ∧ (m : ℚ) * 2 ^ p = c * 2 ^ q := by
  rcases Nat.lt_or_eq_of_le hc with hlt | rfl
  · exact ⟨c, q, ⟨hlt, hleast, hnormal, hfinite⟩, rfl, rfl⟩
  · have hpos := twoTo_pos f.fraction
    have hpattern := pattern_carry hleast
    refine ⟨_, q + 1, ⟨by omega, by omega, .inr le_rfl, hpattern ▸ hfinite⟩, hpattern.symm, ?_⟩
    rw [two_zpow_succ, Nat.cast_mul]
    push_cast
    ring

/-- The multiple of the last bit that a quotient is rounded to, and the power of that bit. -/
theorem roundQuotient_scaled {num den : ℕ} (hnum : 0 < num) (hden : 0 < den) :
    ∃ c q, f.roundQuotient num den = min f.infinity (f.pattern c q) ∧ f.minPower ≤ q ∧
      (num : ℚ) / den / 2 ^ q < (2 * twoTo f.fraction : ℕ) ∧
      (q = f.minPower ∨ (twoTo f.fraction : ℚ) ≤ num / den / 2 ^ q) ∧
      ∀ k : ℤ, |(num : ℚ) / den / 2 ^ q - c| ≤ |(num : ℚ) / den / 2 ^ q - k| := by
  generalize hq : max f.minPower (floorLog2 num den - f.fraction) = q
  obtain ⟨hlow, hhigh⟩ := floorLog2_spec hnum hden
  have hpos := two_zpow_pos q
  refine ⟨roundDiv (num * twoTo (-q).toNat) (den * twoTo q.toNat), q, ?_, by omega, ?_, ?_, ?_⟩
  · rw [roundQuotient, if_neg hnum.ne']
    dsimp only
    rw [hq, pattern]
  · rw [Nat.cast_mul, Nat.cast_ofNat, div_lt_iff₀ hpos, cast_twoTo, ← two_zpow_succ,
      ← zpow_add₀ (by norm_num)]
    exact hhigh.trans_le (two_zpow_le.mpr (by omega))
  · by_cases hmin : q = f.minPower
    · exact .inl hmin
    · refine .inr ?_
      rw [le_div_iff₀ hpos, cast_twoTo, ← zpow_add₀ (by norm_num)]
      exact (two_zpow_le.mpr (by omega)).trans hlow
  · intro k
    have h := abs_sub_roundDiv_le (num * twoTo (-q).toNat)
      (Nat.mul_pos hden (twoTo_pos q.toNat)) k
    rwa [cast_scaled] at h

/-- A multiple of the last bit, as a number and as a count of that bit. -/
theorem abs_sub_scaled (x z : ℚ) (q : ℤ) : |x - z * 2 ^ q| = |x / 2 ^ q - z| * 2 ^ q := by
  have hpos := two_zpow_pos q
  rw [← abs_of_pos hpos, ← abs_mul, sub_mul, abs_of_pos hpos, div_mul_cancel₀ _ hpos.ne']

section Nearest

variable {x y : ℚ} {a c n : ℕ} {q r : ℤ}

theorem nearest_le (hnear : ∀ k : ℤ, |y - c| ≤ |y - k|) (h : y < a) : c ≤ a := by
  have h' := hnear a
  rw [Int.cast_natCast, abs_sub_comm y, abs_sub_comm y, abs_of_pos (sub_pos.mpr h)] at h'
  have := (le_abs_self _).trans h'
  exact Nat.cast_le.mp (show (c : ℚ) ≤ a by linarith)

theorem le_nearest (hnear : ∀ k : ℤ, |y - c| ≤ |y - k|) (h : a ≤ y) : a ≤ c := by
  have h' := hnear a
  rw [Int.cast_natCast, abs_of_nonneg (sub_nonneg.mpr h)] at h'
  have := (le_abs_self _).trans h'
  exact Nat.cast_le.mp (show (a : ℚ) ≤ c by linarith)

/-- A number that a format holds is no nearer than the nearest multiple of the last bit. -/
theorem nearest_of_scaled (hnear : ∀ k : ℤ, |x / 2 ^ q - c| ≤ |x / 2 ^ q - k|)
    (hlow : q = f.minPower ∨ (twoTo f.fraction : ℚ) ≤ x / 2 ^ q) (hnr : f.Holds n r) :
    |x - c * 2 ^ q| ≤ |x - n * 2 ^ r| := by
  have hpos := two_zpow_pos q
  rcases le_or_gt q r with hqr | hqr
  · obtain ⟨k, rfl⟩ := Int.le.dest hqr
    have hmultiple : (n : ℚ) * 2 ^ (q + (k : ℤ)) = ((n * twoTo k : ℕ) : ℤ) * 2 ^ q := by
      rw [zpow_add₀ (by norm_num), Int.cast_natCast, Nat.cast_mul, cast_twoTo]
      ring
    rw [hmultiple, abs_sub_scaled, abs_sub_scaled]
    exact mul_le_mul_of_nonneg_right (hnear _) hpos.le
  · -- a number with a finer last bit lies below the power of two that the quotient reaches
    have hreach : (twoTo f.fraction : ℚ) * 2 ^ q ≤ x := by
      have := hnr.least
      exact (le_div_iff₀ hpos).mp (hlow.resolve_left (by omega))
    have hbelow : (n : ℚ) * 2 ^ r ≤ twoTo f.fraction * 2 ^ q := by
      have hn : (n : ℚ) ≤ 2 * twoTo f.fraction := by exact_mod_cast hnr.lt.le
      calc (n : ℚ) * 2 ^ r ≤ 2 * twoTo f.fraction * 2 ^ r :=
            mul_le_mul_of_nonneg_right hn (two_zpow_pos r).le
        _ = twoTo f.fraction * 2 ^ (r + 1) := by
            rw [two_zpow_succ]
            ring
        _ ≤ twoTo f.fraction * 2 ^ q :=
            mul_le_mul_of_nonneg_left (two_zpow_le.mpr hqr) (Nat.cast_nonneg _)
    have hnear := mul_le_mul_of_nonneg_right (hnear (twoTo f.fraction : ℕ)) hpos.le
    rw [← abs_sub_scaled, ← abs_sub_scaled, Int.cast_natCast,
      abs_of_nonneg (sub_nonneg.mpr hreach)] at hnear
    exact hnear.trans (le_trans (by linarith) (le_abs_self _))

end Nearest

/-- A quotient is written as the number of the format that is nearest to it. -/
theorem roundQuotient_nearest {num den : ℕ} (hnum : 0 < num) (hden : 0 < den)
    (hfinite : f.roundQuotient num den < f.infinity) :
    ∃ m p, f.Holds m p ∧ f.roundQuotient num den = f.pattern m p ∧
      ∀ n r, f.Holds n r → |(num : ℚ) / den - m * 2 ^ p| ≤ |(num : ℚ) / den - n * 2 ^ r| := by
  obtain ⟨c, q, hround, hleast, hhigh, hlow, hnear⟩ := roundQuotient_scaled (f := f) hnum hden
  rw [hround] at hfinite ⊢
  have hpattern : f.pattern c q < f.infinity := by
    rcases min_lt_iff.mp hfinite with h | h
    · exact absurd h (lt_irrefl _)
    · exact h
  obtain ⟨m, p, hholds, hsame, hvalue⟩ := exists_holds_of_carry
    (nearest_le hnear hhigh) hleast (hlow.imp_right (le_nearest hnear)) hpattern
  refine ⟨m, p, hholds, (min_eq_right hpattern.le).trans hsame.symm, fun n r hnr => ?_⟩
  rw [hvalue]
  exact nearest_of_scaled hnear hlow hnr

end Format
end Number
end Hyperslab
