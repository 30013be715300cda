import Hyperslab.Number.Decimal
import Hyperslab.Proofs.Patterns

/-!
# The shortest decimal of a number

The grids of powers of ten get finer until one of them has a point among the numbers
that are rounded to the given one.  With sixteen digits below the first there always
is one, so the decimal that is found is rounded back.
-/

namespace Hyperslab
namespace Number

/-! ## Powers of ten -/

theorem tenTo_pos (n : ℕ) : 0 < tenTo n := Nat.pow_pos (by decide)

theorem tenTo_le {m n : ℕ} (h : m ≤ n) : tenTo m ≤ tenTo n := Nat.pow_le_pow_right (by decide) h

@[simp] theorem cast_tenTo (n : ℕ) : ((tenTo n : ℕ) : ℚ) = (10 : ℚ) ^ (n : ℤ) := by
  rw [tenTo, Nat.pow_eq, Nat.cast_pow, Nat.cast_ofNat, zpow_natCast]

theorem ten_zpow_pos (u : ℤ) : (0 : ℚ) < 10 ^ u := zpow_pos (by norm_num) u

theorem ten_zpow_succ (u : ℤ) : (10 : ℚ) ^ (u + 1) = 10 * 10 ^ u := by
  rw [zpow_add_one₀ (by norm_num), mul_comm]

theorem ten_zpow_le {u v : ℤ} : (10 : ℚ) ^ u ≤ 10 ^ v ↔ u ≤ v :=
  zpow_le_zpow_iff_right₀ (by norm_num)

theorem ten_zpow_lt {u v : ℤ} : (10 : ℚ) ^ u < 10 ^ v ↔ u < v :=
  zpow_lt_zpow_iff_right₀ (by norm_num)

/-- A multiple of a power of ten, as the quotient from which it is read. -/
theorem cast_tens (c : ℕ) (u : ℤ) :
    ((c * tenTo u.toNat : ℕ) : ℚ) / (tenTo (-u).toNat : ℕ) = c * 10 ^ u := by
  rw [Nat.cast_mul, cast_tenTo, cast_tenTo, mul_div_assoc, zpow_toNat_div (by norm_num)]

section Scaled

variable {a c den : ℕ} {u : ℤ} (hden : 0 < den)
include hden

theorem le_scaled_iff :
    a * tenTo (-u).toNat ≤ c * tenTo u.toNat * den ↔ (a : ℚ) / den ≤ c * 10 ^ u := by
  have hdown : 0 < tenTo (-u).toNat := tenTo_pos _
  rw [← cast_tens, div_le_div_iff₀ (Nat.cast_pos.mpr hden) (Nat.cast_pos.mpr hdown),
    ← Nat.cast_mul, ← Nat.cast_mul, Nat.cast_le]

theorem scaled_le_iff :
    c * tenTo u.toNat * den ≤ a * tenTo (-u).toNat ↔ c * (10 : ℚ) ^ u ≤ a / den := by
  have hdown : 0 < tenTo (-u).toNat := tenTo_pos _
  rw [← cast_tens, div_le_div_iff₀ (Nat.cast_pos.mpr hdown) (Nat.cast_pos.mpr hden),
    ← Nat.cast_mul, ← Nat.cast_mul, Nat.cast_le]

end Scaled

/-! ## Decimals -/

namespace Decimal

/-- The number that a decimal stands for. -/
def value (d : Decimal) : ℚ := d.digits * 10 ^ d.power

theorem value_dropZeros (count : ℕ) (d : Decimal) : (d.dropZeros count).value = d.value := by
  induction count generalizing d with
  | zero => rfl
  | succ count ih =>
    rw [dropZeros]
    split_ifs with h
    · rw [Bool.and_eq_true, decide_eq_true_eq] at h
      rw [ih, value, value, ten_zpow_succ, ← mul_assoc]
      congr 1
      have hdigits : d.digits / 10 * 10 = d.digits := by omega
      exact_mod_cast hdigits
    · rfl

end Decimal

/-! ## Neighbourhoods -/

section Neighbourhood

variable {f : Format} {m c : ℕ} {p u : ℤ}

theorem neighbourhood_den_pos (f : Format) (m : ℕ) (p : ℤ) : 0 < (neighbourhood f m p).den :=
  twoTo_pos _

theorem cast_quarters (a : ℕ) (p : ℤ) :
    ((a * twoTo (p - 2).toNat : ℕ) : ℚ) / (twoTo (2 - p).toNat : ℕ) = a / 4 * 2 ^ p := by
  have h := Format.cast_size a (p - 2)
  rw [neg_sub] at h
  rw [h, zpow_sub₀ (by norm_num)]
  ring

theorem neighbourhood_value (f : Format) (m : ℕ) (p : ℤ) :
    ((neighbourhood f m p).value : ℚ) / (neighbourhood f m p).den = m * 2 ^ p := by
  refine (cast_quarters (4 * m) p).trans ?_
  push_cast
  ring

theorem neighbourhood_high (f : Format) (m : ℕ) (p : ℤ) :
    ((neighbourhood f m p).high : ℚ) / (neighbourhood f m p).den = (m + 1 / 2) * 2 ^ p := by
  refine (cast_quarters (4 * m + 2) p).trans ?_
  push_cast
  ring

theorem neighbourhood_low (hm : 0 < m) (p : ℤ) :
    ((neighbourhood f m p).low : ℚ) / (neighbourhood f m p).den = (m - f.reach m p) * 2 ^ p := by
  refine (cast_quarters (4 * m - _) p).trans ?_
  rw [Nat.cast_sub (by split <;> omega)]
  congr 1
  unfold Format.reach
  by_cases h : m = twoTo f.fraction ∧ f.minPower < p
  · rw [if_pos (by simpa using h), if_pos h]
    push_cast
    ring
  · rw [if_neg (by simpa using h), if_neg h]
    push_cast
    ring

/-- A neighbourhood holds the numbers that are rounded to the one in its middle. -/
theorem holds_iff (hm : 0 < m) :
    (neighbourhood f m p).holds u c = true ↔ f.Rounds m p (c * 10 ^ u) := by
  have hden := neighbourhood_den_pos f m p
  have hlow := neighbourhood_low (f := f) hm p
  have hhigh := neighbourhood_high f m p
  have hclosed : (neighbourhood f m p).closed = decide (m % 2 = 0) := rfl
  unfold Neighbourhood.holds
  dsimp only
  rw [hclosed]
  generalize neighbourhood f m p = n at *
  by_cases heven : m % 2 = 0
  · rw [if_pos (decide_eq_true heven), Bool.and_eq_true, decide_eq_true_eq, decide_eq_true_eq,
      le_scaled_iff hden, scaled_le_iff hden, hlow, hhigh]
    exact ⟨fun h => ⟨h.1, h.2, fun _ => heven⟩, fun h => ⟨h.low, h.high⟩⟩
  · rw [if_neg (by simpa using heven), Bool.and_eq_true, decide_eq_true_eq, decide_eq_true_eq,
      ← not_le, ← not_le, scaled_le_iff hden, le_scaled_iff hden, hlow, hhigh, not_le, not_le]
    constructor
    · intro h
      exact ⟨h.1.le, h.2.le, fun hends => by rcases hends with h' | h' <;> linarith [h.1, h.2]⟩
    · intro h
      exact ⟨lt_of_le_of_ne h.low fun h' => heven (h.tie (.inl h'.symm)),
        lt_of_le_of_ne h.high fun h' => heven (h.tie (.inr h'))⟩

end Neighbourhood

/-! ## Grids -/

theorem roundDiv_mem (num den : ℕ) :
    roundDiv num den = num / den ∨ roundDiv num den = num / den + 1 := by
  unfold roundDiv
  dsimp only
  split_ifs
  · exact .inl rfl
  · exact .inr rfl
  · omega

namespace Neighbourhood

variable {n : Neighbourhood} {u : ℤ} {c : ℕ}

theorem holds_of_nearest? (h : n.nearest? u = some c) : n.holds u c = true := by
  unfold nearest? at h
  dsimp only at h
  split at h
  · rename_i hlow hhigh
    rcases roundDiv_mem (n.value * tenTo (-u).toNat) (n.den * tenTo u.toNat) with h' | h'
    · rwa [← Option.some.inj h, h']
    · rwa [← Option.some.inj h, h']
  · rename_i hlow _
    rwa [← Option.some.inj h]
  · rename_i _ hhigh
    rwa [← Option.some.inj h]
  · cases h

/-- A search that comes to a grid with a point in the neighbourhood ends at such a point. -/
theorem holds_search (count : ℕ) (h : (n.nearest? (u - count)).isSome) :
    n.holds (n.search (count + 1) u).power (n.search (count + 1) u).digits = true := by
  induction count generalizing u with
  | zero =>
    obtain ⟨c, hc⟩ := Option.isSome_iff_exists.mp h
    rw [Nat.cast_zero, sub_zero] at hc
    rw [search, hc]
    exact holds_of_nearest? hc
  | succ count ih =>
    rw [search]
    cases hc : n.nearest? u with
    | some c => exact holds_of_nearest? hc
    | none =>
      refine ih ?_
      rwa [show u - 1 - (count : ℤ) = u - (count + 1 : ℕ) by push_cast; ring]

end Neighbourhood

/-- The multiples of a power of ten next to a quotient. -/
theorem floor_scaled (value : ℕ) {den : ℕ} (hden : 0 < den) (u : ℤ) :
    ((value * tenTo (-u).toNat / (den * tenTo u.toNat) : ℕ) : ℚ) * 10 ^ u ≤ value / den ∧
      (value : ℚ) / den <
        ((value * tenTo (-u).toNat / (den * tenTo u.toNat) + 1 : ℕ) : ℚ) * 10 ^ u := by
  have hpos : 0 < den * tenTo u.toNat := Nat.mul_pos hden (tenTo_pos _)
  rw [← scaled_le_iff hden, ← not_le, ← scaled_le_iff hden, not_le, Nat.mul_assoc, Nat.mul_assoc,
    Nat.mul_comm (tenTo u.toNat)]
  refine ⟨Nat.div_mul_le_self _ _, ?_⟩
  rw [Nat.mul_comm (_ + 1)]
  exact Nat.lt_mul_div_succ _ hpos

/-- A grid with a unit below the width of a neighbourhood has a point in it, next to the value. -/
theorem nearest?_isSome {f : Format} {m : ℕ} {p u : ℤ} (hm : 0 < m)
    (hu : (10 : ℚ) ^ u < (1 / 2 + f.reach m p) * 2 ^ p) :
    ((neighbourhood f m p).nearest? u).isSome := by
  have htwo := two_zpow_pos p
  have hreach := mul_pos (f.reach_pos m p) htwo
  obtain ⟨hfloor, hceil⟩ := floor_scaled (neighbourhood f m p).value
    (neighbourhood_den_pos f m p) u
  rw [neighbourhood_value] at hfloor hceil
  unfold Neighbourhood.nearest?
  dsimp only
  generalize (neighbourhood f m p).value * tenTo (-u).toNat /
    ((neighbourhood f m p).den * tenTo u.toNat) = a at *
  have hsome : f.Rounds m p (a * 10 ^ u) ∨ f.Rounds m p ((a + 1 : ℕ) * 10 ^ u) := by
    rcases lt_or_ge ((m - f.reach m p) * 2 ^ p) (a * 10 ^ u) with hlow | hlow
    · exact .inl ⟨hlow.le, by linarith, fun h => by rcases h with h | h <;> linarith⟩
    · have hhigh : ((a + 1 : ℕ) : ℚ) * 10 ^ u < (m + 1 / 2) * 2 ^ p := by
        push_cast
        linarith
      exact .inr ⟨by linarith, hhigh.le, fun h => by rcases h with h | h <;> linarith⟩
  rw [← holds_iff hm, ← holds_iff hm] at hsome
  split
  all_goals simp_all

/-! ## The first grid -/

/-- A power of ten compared with one of two by way of a third pair of powers. -/
theorem ten_zpow_le_of_le {a b k g : ℤ} (hb : 0 < b) (hk : b * k ≤ a * g)
    (h : ((10 : ℚ) ^ a) ^ g ≤ (2 ^ b) ^ g) : (10 : ℚ) ^ k ≤ 2 ^ g := by
  obtain ⟨n, rfl⟩ := Int.eq_ofNat_of_zero_le hb.le
  refine le_of_pow_le_pow_left₀ (show n ≠ 0 by omega) (two_zpow_pos g).le ?_
  calc ((10 : ℚ) ^ k) ^ n = 10 ^ ((n : ℤ) * k) := by rw [mul_comm, zpow_mul, zpow_natCast]
    _ ≤ 10 ^ (a * g) := ten_zpow_le.mpr hk
    _ = (10 ^ a) ^ g := zpow_mul _ _ _
    _ ≤ (2 ^ (n : ℤ)) ^ g := h
    _ = (2 ^ g) ^ n := by rw [← zpow_mul, mul_comm, zpow_mul, zpow_natCast]

/-- The quotient 0.30103 stands for the logarithm of two; it is too large by so little that one step
makes up for it. -/
theorem ten_zpow_le_two_zpow {k g : ℤ} (hk : 100000 * (k + 1) ≤ 30103 * g) (hlow : -10000 ≤ g)
    (hhigh : g ≤ 10000) : (10 : ℚ) ^ k ≤ 2 ^ g := by
  rcases le_or_gt 0 g with hg | hg
  · have hbase : (10 : ℚ) ^ ((301 : ℕ) : ℤ) ≤ 2 ^ ((1000 : ℕ) : ℤ) := by
      rw [← cast_tenTo, ← cast_twoTo, Nat.cast_le]
      decide +kernel
    exact ten_zpow_le_of_le (a := (301 : ℕ)) (b := (1000 : ℕ)) (by omega) (by omega)
      (zpow_le_zpow_left₀ hg (ten_zpow_pos _).le hbase)
  · have hbase : (2 : ℚ) ^ ((10000 : ℕ) : ℤ) ≤ 10 ^ ((3011 : ℕ) : ℤ) := by
      rw [← cast_tenTo, ← cast_twoTo, Nat.cast_le]
      decide +kernel
    have hinv := inv_anti₀ (zpow_pos (two_zpow_pos _) _)
      (zpow_le_zpow_left₀ (show 0 ≤ -g by omega) (two_zpow_pos _).le hbase)
    rw [← zpow_neg, ← zpow_neg, neg_neg] at hinv
    exact ten_zpow_le_of_le (a := (3011 : ℕ)) (b := (10000 : ℕ)) (by omega) (by omega) hinv

theorem ten_floorLog10_le {num den : ℕ} (hnum : 0 < num) (hden : 0 < den)
    (hlow : -10000 ≤ floorLog2 num den) (hhigh : floorLog2 num den ≤ 10000) :
    (10 : ℚ) ^ floorLog10 num den ≤ num / den := by
  have hreach : ∀ k : ℤ, den * tenTo k.toNat ≤ num * tenTo (-k).toNat ↔
      (10 : ℚ) ^ k ≤ num / den := by
    intro k
    have h := scaled_le_iff (a := num) (c := 1) (u := k) hden
    rwa [Nat.one_mul, Nat.cast_one, one_mul, Nat.mul_comm (tenTo k.toNat)] at h
  unfold floorLog10
  dsimp only
  simp only [hreach, decide_eq_true_eq]
  split_ifs with h₁ h₂
  · exact h₁
  · exact h₂
  · obtain ⟨hfloor, -⟩ := floorLog2_spec hnum hden
    refine (ten_zpow_le_two_zpow ?_ hlow hhigh).trans hfloor
    rw [Int.fdiv_eq_ediv_of_nonneg _ (by decide)]
    omega

/-! ## Back again -/

section Back

variable {m : ℕ} {p : ℤ}

/-- The range of the numbers that are held with 64 bits, in powers of two. -/
theorem binary64_bounds (h : binary64.Holds m p) : m < twoTo 53 ∧ -1074 ≤ p ∧ p ≤ 971 := by
  have hpow : twoTo binary64.fraction = twoTo 52 := rfl
  have hmin : binary64.minPower = -1074 := rfl
  have hinfinity : binary64.infinity = 2047 * twoTo 52 := rfl
  have hdouble : twoTo 53 = 2 * twoTo 52 := rfl
  have hlt := h.lt
  have hleast := h.least
  have hfinite := h.finite
  have hnormal := h.normal
  rw [Format.pattern, hpow, hmin, hinfinity] at hfinite
  rw [hpow] at hlt hnormal
  rw [hmin] at hleast hnormal
  refine ⟨by omega, hleast, ?_⟩
  by_contra! hp
  have := Nat.mul_le_mul_right (twoTo 52) (show 2046 ≤ (p - -1074).toNat by omega)
  omega

/-- The numbers that are rounded to one of those held with 64 bits lie between two powers of two. -/
theorem rounds_range (h : binary64.Holds m p) (hm : 0 < m) {x : ℚ} (hx : binary64.Rounds m p x) :
    (2 : ℚ) ^ (-((1075 : ℕ) : ℤ)) ≤ x ∧ x < 2 ^ ((1024 : ℕ) : ℤ) := by
  obtain ⟨hlt, hleast, hmost⟩ := binary64_bounds h
  have hm' : (1 : ℚ) ≤ m := Nat.one_le_cast.mpr hm
  have hreach := binary64.reach_le m p
  have hsize : (m : ℚ) + 1 / 2 < 2 ^ ((53 : ℕ) : ℤ) := by
    have : (m : ℚ) + 1 ≤ twoTo 53 := by exact_mod_cast hlt
    rw [← cast_twoTo]
    linarith
  constructor
  · calc (2 : ℚ) ^ (-((1075 : ℕ) : ℤ)) ≤ 2 ^ (p - 1) := two_zpow_le.mpr (by omega)
      _ = 1 / 2 * 2 ^ p := by
          rw [zpow_sub_one₀ (by norm_num)]
          ring
      _ ≤ (m - binary64.reach m p) * 2 ^ p :=
          mul_le_mul_of_nonneg_right (by linarith) (two_zpow_pos p).le
      _ ≤ x := hx.low
  · calc x ≤ (m + 1 / 2) * 2 ^ p := hx.high
      _ < 2 ^ ((53 : ℕ) : ℤ) * 2 ^ p := mul_lt_mul_of_pos_right hsize (two_zpow_pos p)
      _ ≤ 2 ^ ((1024 : ℕ) : ℤ) := by
          rw [← zpow_add₀ (by norm_num)]
          exact two_zpow_le.mpr (by omega)

theorem floorLog2_bounds (h : binary64.Holds m p) (hm : 0 < m) {num den : ℕ} (hnum : 0 < num)
    (hden : 0 < den) (hvalue : (num : ℚ) / den = m * 2 ^ p) :
    -1075 ≤ floorLog2 num den ∧ floorLog2 num den < 1024 := by
  obtain ⟨hleft, hright⟩ := rounds_range h hm (binary64.rounds_self m p)
  obtain ⟨hlow, hhigh⟩ := floorLog2_spec hnum hden
  rw [hvalue] at hlow hhigh
  have habove := two_zpow_lt.mp (hleft.trans_lt hhigh)
  have hbelow := two_zpow_lt.mp (hlow.trans_lt hright)
  omega

/-- The grid sixteen places below the first digit is finer than a neighbourhood is wide. -/
theorem shortest_grid (h : binary64.Holds m p) {u : ℤ}
    (hu : (10 : ℚ) ^ u ≤ m * 2 ^ p) :
    (10 : ℚ) ^ (u - 16) < (1 / 2 + binary64.reach m p) * 2 ^ p := by
  obtain ⟨hlt, -, -⟩ := binary64_bounds h
  have hunit : (10 : ℚ) ^ (u - 16) = 10 ^ u / 10 ^ 16 := by
    rw [zpow_sub₀ (by norm_num)]
    rfl
  have hwide : (m : ℚ) / 10 ^ 16 < 1 / 2 + binary64.reach m p := by
    unfold Format.reach
    split_ifs with hpower
    · rw [hpower.1]
      norm_num [twoTo, binary64]
    · have : (m : ℚ) < (9007199254740992 : ℕ) := Nat.cast_lt.mpr hlt
      rw [div_lt_iff₀ (by norm_num)]
      push_cast at this
      linarith
  calc (10 : ℚ) ^ (u - 16) ≤ m / 10 ^ 16 * 2 ^ p := by
        rw [hunit, div_mul_eq_mul_div]
        exact div_le_div_of_nonneg_right hu (by norm_num)
    _ < (1 / 2 + binary64.reach m p) * 2 ^ p := mul_lt_mul_of_pos_right hwide (two_zpow_pos p)

/-- The shortest decimal is rounded back to the number it stands for. -/
theorem shortest_rounds (h : binary64.Holds m p) (hm : 0 < m) :
    binary64.Rounds m p (shortest binary64 m p).value := by
  have hvalue := neighbourhood_value binary64 m p
  have hden := neighbourhood_den_pos binary64 m p
  have hnum : 0 < (neighbourhood binary64 m p).value :=
    Nat.mul_pos (Nat.mul_pos (by decide) hm) (twoTo_pos _)
  obtain ⟨hlow, hhigh⟩ := floorLog2_bounds h hm hnum hden hvalue
  have hfirst := ten_floorLog10_le hnum hden (by omega) (by omega)
  rw [hvalue] at hfirst
  have hsearch := Neighbourhood.holds_search 16
    (nearest?_isSome hm (shortest_grid h hfirst))
  rw [shortest, Decimal.value_dropZeros, Decimal.value]
  exact (holds_iff hm).mp hsearch

/-- The number of digits gives the size of a decimal up to one power of ten. -/
theorem Decimal.value_bounds {d : Decimal} (hd : 0 < d.digits) :
    (10 : ℚ) ^ ((digitText d.digits).length + d.power - 1) ≤ d.value ∧
      d.value < 10 ^ ((digitText d.digits).length + d.power) := by
  have hten := ten_zpow_pos d.power
  have hpos : 0 < (digitText d.digits).length := Nat.length_toDigits_pos
  have hiff : ∀ k, 0 < k → ((digitText d.digits).length ≤ k ↔ d.digits < tenTo k) := fun k hk =>
    Nat.length_toDigits_le_iff (by decide) hk
  generalize (digitText d.digits).length = len at *
  constructor
  · have hlow : tenTo (len - 1) ≤ d.digits := by
      rcases Nat.eq_zero_or_pos (len - 1) with hzero | hlen
      · rw [hzero]
        exact hd
      · exact not_lt.mp fun hlt => absurd ((hiff _ hlen).mpr hlt) (by omega)
    have hlow' : (10 : ℚ) ^ ((len - 1 : ℕ) : ℤ) ≤ d.digits := by
      rw [← cast_tenTo]
      exact Nat.cast_le.mpr hlow
    rw [show (len : ℤ) + d.power - 1 = ((len - 1 : ℕ) : ℤ) + d.power by omega,
      zpow_add₀ (by norm_num)]
    exact mul_le_mul_of_nonneg_right hlow' hten.le
  · have hhigh : (d.digits : ℚ) < 10 ^ (len : ℤ) := by
      rw [← cast_tenTo]
      exact Nat.cast_lt.mpr ((hiff len hpos).mp le_rfl)
    rw [zpow_add₀ (by norm_num)]
    exact mul_lt_mul_of_pos_right hhigh hten

theorem Format.Rounds.digits_pos {f : Format} {d : Decimal} (hd : f.Rounds m p d.value)
    (hm : 0 < m) : 0 < d.digits := by
  refine Nat.pos_of_ne_zero fun h0 => (hd.pos hm).ne' ?_
  rw [Decimal.value, h0, Nat.cast_zero, zero_mul]

/-- A decimal among the numbers that are rounded to a given one is read as its pattern. -/
theorem Decimal.round_eq (h : binary64.Holds m p) (hm : 0 < m) {d : Decimal}
    (hd : binary64.Rounds m p d.value) : d.round binary64 = binary64.pattern m p := by
  have hdigits := hd.digits_pos hm
  obtain ⟨hlow, hhigh⟩ := value_bounds hdigits
  obtain ⟨hleft, hright⟩ := rounds_range h hm hd
  have hsmall : (10 : ℚ) ^ (-((401 : ℕ) : ℤ)) < 2 ^ (-((1075 : ℕ) : ℤ)) := by
    rw [zpow_neg, zpow_neg]
    refine inv_strictAnti₀ (two_zpow_pos _) ?_
    rw [← cast_tenTo, ← cast_twoTo, Nat.cast_lt]
    decide +kernel
  have hlarge : (2 : ℚ) ^ ((1024 : ℕ) : ℤ) < 10 ^ ((400 : ℕ) : ℤ) := by
    rw [← cast_tenTo, ← cast_twoTo, Nat.cast_lt]
    decide +kernel
  have hbelow := ten_zpow_lt.mp ((hsmall.trans_le hleft).trans hhigh)
  have habove := ten_zpow_lt.mp ((hlow.trans_lt hright).trans hlarge)
  unfold round
  dsimp only
  rw [if_neg (by simp; omega), if_neg (by omega)]
  refine Format.roundQuotient_eq h (Nat.mul_pos hdigits (tenTo_pos _)) (tenTo_pos _) ?_
  rwa [cast_tens]

end Back

end Number
end Hyperslab
