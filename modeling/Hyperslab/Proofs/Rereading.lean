import Hyperslab.Proofs.Nesting
import Mathlib.Data.Nat.Cast.Order.Field

/-!
# Arrays read back from nested lists

The element type is found anew: truth values keep theirs, whole numbers come back with
64 bits, and floating-point numbers with 64 bits as well.  Each element is the same
amount as before.  Only whole numbers without a sign that lie on both sides of the
greatest number with one are brought to floating point.
-/

namespace Hyperslab

open Number (Amount binary32 binary64 twoTo)

/-! ## Elements -/

namespace ElementType

/-- The codes that elements of a type have. -/
def IsCode (t : ElementType) (code : ℤ) : Prop :=
  match t with
  | boolean => code = 0 ∨ code = 1
  | signed w => (signed w).inRange code = true
  | unsigned w => (unsigned w).inRange code = true
  | float32 => 0 ≤ code ∧ code < twoTo 32
  | float64 => 0 ≤ code ∧ code < twoTo 64
  | other => False

instance (t : ElementType) (code : ℤ) : Decidable (t.IsCode code) :=
  match t with
  | boolean => inferInstanceAs (Decidable (code = 0 ∨ code = 1))
  | signed w => inferInstanceAs (Decidable ((signed w).inRange code = true))
  | unsigned w => inferInstanceAs (Decidable ((unsigned w).inRange code = true))
  | float32 => inferInstanceAs (Decidable (0 ≤ code ∧ code < twoTo 32))
  | float64 => inferInstanceAs (Decidable (0 ≤ code ∧ code < twoTo 64))
  | other => inferInstanceAs (Decidable False)

theorem signed_inRange (w : Width) {n : ℤ} : (signed w).inRange n = true ↔
    -(twoTo (w.bits - 1) : ℤ) ≤ n ∧ n < twoTo (w.bits - 1) := by
  rw [inRange, Bool.and_eq_true, decide_eq_true_eq, decide_eq_true_eq]

theorem unsigned_inRange (w : Width) {n : ℤ} : (unsigned w).inRange n = true ↔
    0 ≤ n ∧ n < twoTo w.bits := by
  rw [inRange, Bool.and_eq_true, decide_eq_true_eq, decide_eq_true_eq]

/-- A whole number fits in 64 bits with a sign, or needs all 64 bits. -/
theorem IsCode.wide {t : ElementType} {c : ℤ} (ht : t.isWhole = true) (hc : t.IsCode c) :
    (-(twoTo 63 : ℤ) ≤ c ∧ c < twoTo 63) ∨
      t = .uint64 ∧ (twoTo 63 : ℤ) ≤ c ∧ c < twoTo 64 := by
  cases t with
  | signed w =>
    have hc := (signed_inRange w).mp hc
    have hle : twoTo (w.bits - 1) ≤ twoTo 63 := by cases w <;> decide
    omega
  | unsigned w =>
    have hc := (unsigned_inRange w).mp hc
    by_cases hw : w = .w64
    · subst hw
      have hc : 0 ≤ c ∧ c < twoTo 64 := hc
      by_cases hlt : c < twoTo 63
      · omega
      · exact .inr ⟨rfl, by omega, hc.2⟩
    · have hle : twoTo w.bits ≤ twoTo 63 := by
        cases w
        · decide
        · decide
        · decide
        · exact absurd rfl hw
      omega
  | boolean => cases ht
  | float32 => cases ht
  | float64 => cases ht
  | other => cases ht

/-- What an element counts. -/
def amount (t : ElementType) (code : ℤ) : Amount :=
  match t.format? with
  | some f => (f.read code.toNat).amount
  | none => .number code

end ElementType

namespace Literal

/-- An array of numbers: as many elements as the shape says, and each with a code of its type. -/
structure Sound (l : Literal) : Prop where
  numeric : l.type ≠ .other
  length_eq : l.codes.length = l.shape.size
  isCode : ∀ c ∈ l.codes, l.type.IsCode c

/-- What the elements count, in row-major order. -/
def amounts (l : Literal) : List Amount := l.codes.map l.type.amount

/-- Whole numbers of which some fit in 64 bits with a sign and some do not. -/
def Straddles (l : Literal) : Prop :=
  l.type = .uint64 ∧ (∃ c ∈ l.codes, c < twoTo 63) ∧ ∃ c ∈ l.codes, (twoTo 63 : ℤ) ≤ c

end Literal

/-! ## Formats -/

namespace Number

/-- A number of 32 bits is one of 64 bits as well. -/
theorem fits_binary64_of_binary32 (bits : ℕ) : binary64.Fits (binary32.read bits) := by
  cases h : binary32.read bits with
  | nan => trivial
  | infinite negative => trivial
  | finite negative m p =>
    obtain ⟨hholds, -⟩ := Format.read_eq_finite h
    have hpow : twoTo binary32.fraction = 8388608 := rfl
    have hpow' : twoTo binary64.fraction = 4503599627370496 := rfl
    have hmin : binary32.minPower = -149 := rfl
    have hmin' : binary64.minPower = -1074 := rfl
    have hinfinity : binary32.infinity = 255 * 8388608 := rfl
    have hexponent : twoTo binary64.exponent = 2048 := rfl
    have hlt := hholds.lt
    have hleast := hholds.least
    have hfinite := hholds.finite
    rw [Format.pattern, hpow, hmin, hinfinity] at hfinite
    rw [hpow] at hlt
    rw [hmin] at hleast
    have hmost : (p - -149).toNat < 255 := by
      by_contra! hp
      have := Nat.mul_le_mul_right 8388608 hp
      omega
    exact .inr (Format.exists_holds (by omega) (by omega) (by omega))

/-- Writing what 64 bits can hold keeps the amount. -/
theorem amount_write {r : Reading} (h : binary64.Fits r) :
    (binary64.read (binary64.write r)).amount = r.amount :=
  Format.amount_read_write (by decide) (by decide) h

/-- Whole numbers of 64 bits are far from being infinite. -/
theorem roundQuotient_ne_infinity {n : ℕ} (hn : n < twoTo 64) :
    binary64.roundQuotient n 1 ≠ binary64.infinity := by
  rcases Nat.eq_zero_or_pos n with rfl | hpos
  · decide
  · obtain ⟨c, q, hround, hleast, hhigh, hlow, hnear⟩ :=
      Format.roundQuotient_scaled (f := binary64) hpos one_pos
    have hcarry : c ≤ 2 * twoTo 52 := Format.nearest_le hnear hhigh
    have hpower : q ≤ 12 := by
      rcases hlow with hq | hlow
      · exact hq.trans_le (by decide)
      · rw [Nat.cast_one, div_one, le_div_iff₀ (two_zpow_pos q), cast_twoTo,
          ← zpow_add₀ (by norm_num)] at hlow
        have hsize : (n : ℚ) < 2 ^ ((64 : ℕ) : ℤ) := by
          rw [← cast_twoTo]
          exact Nat.cast_lt.mpr hn
        have := two_zpow_lt.mp (hlow.trans_lt hsize)
        have hfraction : binary64.fraction = 52 := rfl
        omega
    have hmin : binary64.minPower = -1074 := rfl
    have hfraction : binary64.fraction = 52 := rfl
    have hinfinity : binary64.infinity = 2047 * twoTo 52 := rfl
    have hunit := twoTo_pos 52
    rw [hround, Format.pattern, hmin, hfraction, hinfinity]
    generalize twoTo 52 = unit at *
    have := Nat.mul_le_mul_right unit (show (q - -1074).toNat ≤ 1086 by omega)
    omega

/-- The numbers of 64 bits in floating point, by the forms in which they are held. -/
theorem holds_of_amount {bits : ℕ} {q : ℚ} (h : (binary64.read bits).amount = .number q) :
    ∃ m p, binary64.Holds m p ∧ (q = m * 2 ^ p ∨ q = -(m * 2 ^ p)) := by
  cases hread : binary64.read bits with
  | nan =>
    rw [hread] at h
    cases h
  | infinite negative =>
    rw [hread] at h
    cases h
  | finite negative m p =>
    rw [hread, Reading.amount, Amount.number.injEq] at h
    refine ⟨m, p, (Format.read_eq_finite hread).1, ?_⟩
    cases negative
    · exact .inl (by rw [← h, if_neg Bool.false_ne_true, one_mul])
    · exact .inr (by rw [← h, if_pos rfl, neg_one_mul])

/-- A whole number is brought to the number in floating point that is nearest to it. -/
theorem ofInt_nearest {n : ℤ} (hlow : 0 ≤ n) (hhigh : n < twoTo 64) :
    ∃ v, (binary64.read (binary64.ofInt n)).amount = .number v ∧
      ∀ bits q, (binary64.read bits).amount = .number q → |v - n| ≤ |q - n| := by
  obtain ⟨n, rfl⟩ := Int.eq_ofNat_of_zero_le hlow
  have hn : n < twoTo 64 := by exact_mod_cast hhigh
  have hofInt : binary64.ofInt n = binary64.withSign false (binary64.roundQuotient n 1) := by
    rw [Format.ofInt, decide_eq_false (by omega), Int.natAbs_natCast]
  rw [hofInt, Int.cast_natCast]
  rcases Nat.eq_zero_or_pos n with rfl | hpos
  · refine ⟨0, by decide +kernel, fun bits q _ => ?_⟩
    simp
  · have hfinite : binary64.roundQuotient n 1 < binary64.infinity := by
      refine lt_of_le_of_ne ?_ (roundQuotient_ne_infinity hn)
      rw [Format.roundQuotient, if_neg hpos.ne']
      exact min_le_left _ _
    obtain ⟨m, p, hholds, hpattern, hnearest⟩ :=
      Format.roundQuotient_nearest hpos one_pos hfinite
    refine ⟨m * 2 ^ p, ?_, fun bits q hq => ?_⟩
    · rw [hpattern, Format.read_pattern hholds, Reading.amount, if_neg Bool.false_ne_true, one_mul]
    · obtain ⟨m', p', hholds', hvalue⟩ := holds_of_amount hq
      have h := hnearest m' p' hholds'
      rw [Nat.cast_one, div_one, abs_sub_comm, abs_sub_comm (n : ℚ)] at h
      rcases hvalue with rfl | rfl
      · exact h
      · have hsize : (0 : ℚ) ≤ m' * 2 ^ p' := mul_nonneg m'.cast_nonneg (two_zpow_pos p').le
        have hn' : (0 : ℚ) ≤ n := n.cast_nonneg
        refine h.trans ?_
        rw [abs_le, abs_of_nonpos (by linarith)]
        constructor <;> linarith

end Number

/-! ## Types -/

namespace Literal
namespace Host

variable {t : ElementType} {ts : List ElementType}

theorem commonType_of_forall (hne : ts ≠ []) (h : ∀ x ∈ ts, x = t) (hself : t.promote t = t) :
    commonType ts = t := by
  obtain ⟨x, rest, rfl⟩ := List.exists_cons_of_ne_nil hne
  obtain rfl := h x List.mem_cons_self
  have hrest : ∀ y ∈ rest, y = x := fun y hy => h y (List.mem_cons_of_mem _ hy)
  show rest.foldl ElementType.promote x = x
  clear h hne
  induction rest with
  | nil => rfl
  | cons y rest ih =>
    rw [List.foldl_cons, hrest y List.mem_cons_self, hself]
    exact ih fun z hz => hrest z (List.mem_cons_of_mem _ hz)

/-- The whole types that plain numbers ask for. -/
def IsWide (t : ElementType) : Prop := t = .int64 ∨ t = .uint64

theorem foldl_promote_float64 (h : ∀ x ∈ ts, IsWide x) :
    ts.foldl ElementType.promote .float64 = .float64 := by
  induction ts with
  | nil => rfl
  | cons x rest ih =>
    have hx : ElementType.promote .float64 x = .float64 := by
      rcases h x List.mem_cons_self with rfl | rfl <;> rfl
    rw [List.foldl_cons, hx]
    exact ih fun y hy => h y (List.mem_cons_of_mem _ hy)

theorem foldl_promote_mixed (ht : IsWide t) (h : ∀ x ∈ ts, IsWide x) (hother : ∃ x ∈ ts, x ≠ t) :
    ts.foldl ElementType.promote t = .float64 := by
  induction ts with
  | nil =>
    obtain ⟨x, hx, _⟩ := hother
    cases hx
  | cons x rest ih =>
    have hrest : ∀ y ∈ rest, IsWide y := fun y hy => h y (List.mem_cons_of_mem _ hy)
    have hx := h x List.mem_cons_self
    rw [List.foldl_cons]
    by_cases hxt : x = t
    · have hself : t.promote x = t := by
        rw [hxt]
        rcases ht with rfl | rfl <;> rfl
      rw [hself]
      refine ih hrest ?_
      obtain ⟨y, hy, hyt⟩ := hother
      exact ⟨y, (List.mem_cons.mp hy).resolve_left fun h => hyt (h.trans hxt), hyt⟩
    · have hmixed : t.promote x = .float64 := by
        rcases ht with rfl | rfl <;> rcases hx with rfl | rfl
        · exact absurd rfl hxt
        · rfl
        · rfl
        · exact absurd rfl hxt
      rw [hmixed]
      exact foldl_promote_float64 hrest

/-- Numbers of both wide types are brought to floating point. -/
theorem commonType_mixed (h : ∀ x ∈ ts, IsWide x) (hint : .int64 ∈ ts) (huint : .uint64 ∈ ts) :
    commonType ts = .float64 := by
  cases ts with
  | nil => cases hint
  | cons x rest =>
    have hx := h x List.mem_cons_self
    refine foldl_promote_mixed hx (fun y hy => h y (List.mem_cons_of_mem _ hy)) ?_
    rcases hx with rfl | rfl
    · exact ⟨_, (List.mem_cons.mp huint).resolve_left (by decide), by decide⟩
    · exact ⟨_, (List.mem_cons.mp hint).resolve_left (by decide), by decide⟩

/-! ## Whole numbers -/

variable {c : ℤ}

theorem whole_int64 (hlow : -(twoTo 63 : ℤ) ≤ c) (hhigh : c < twoTo 63) :
    leafType (.whole c) = .int64 ∧ code .int64 (.whole c) = .ok c := by
  have hc : ElementType.int64.inRange c = true :=
    (ElementType.signed_inRange .w64).mpr ⟨hlow, hhigh⟩
  constructor
  · rw [leafType, if_pos hc]
  · show inRange .int64 c = _
    rw [inRange, if_pos hc]

theorem whole_uint64 (hlow : (twoTo 63 : ℤ) ≤ c) (hhigh : c < twoTo 64) :
    leafType (.whole c) = .uint64 ∧ code .uint64 (.whole c) = .ok c := by
  have hpos := Number.twoTo_pos 63
  have hc : ElementType.uint64.inRange c = true :=
    (ElementType.unsigned_inRange .w64).mpr ⟨by omega, hhigh⟩
  have hc' : ¬ ElementType.int64.inRange c = true := fun h =>
    absurd ((ElementType.signed_inRange .w64).mp h).2 (not_lt.mpr hlow)
  constructor
  · rw [leafType, if_neg hc', if_pos hc]
  · show inRange .uint64 c = _
    rw [inRange, if_pos hc]

/-- A whole number of 64 bits has a pattern as a floating-point number. -/
theorem whole_float64 (hlow : 0 ≤ c) (hhigh : c < twoTo 64) :
    code .float64 (.whole c) = .ok (ElementType.uint64.convert .float64 c) := by
  have hexceeds : ElementType.exceedsFloat c = false := by
    rw [ElementType.exceedsFloat, beq_eq_false_iff_ne, Number.Format.ofInt,
      decide_eq_false (by omega), Int.natAbs_natCast, Number.Format.withSign,
      if_neg Bool.false_ne_true]
    exact Number.roundQuotient_ne_infinity (by omega)
  have hconvert : ElementType.uint64.convert .float64 c = binary64.ofInt c := by
    rw [ElementType.convert, if_neg (by decide)]
    rfl
  have hkeep : ∀ bits : ℕ, ElementType.float64.ofFloat bits = bits := fun bits => rfl
  show floatCode .float64 (.whole c) = _
  rw [hconvert, ← hkeep, floatCode, Value.toFloat, if_neg (by simp [hexceeds])]
  · rfl
  · intro hnull
    cases hnull

end Host

/-- A whole number of 64 bits is written in few enough digits. -/
theorem readsAs_whole {t : ElementType} {c : ℤ} (hc : (-(twoTo 63 : ℤ) ≤ c ∧ c < twoTo 63) ∨
    t = .uint64 ∧ (twoTo 63 : ℤ) ≤ c ∧ c < twoTo 64) : Json.ReadsAs (.whole c) (.whole c) := by
  have hsize : c.natAbs < twoTo 64 := by
    have hdouble : twoTo 64 = 2 * twoTo 63 := rfl
    have hpos := Number.twoTo_pos 63
    generalize twoTo 64 = a at *
    generalize twoTo 63 = b at *
    omega
  have hshort : twoTo 64 ≤ Number.tenTo 20 := by decide
  have hlong : Number.tenTo 20 ≤ Json.leastLong := Number.tenTo_le (by decide)
  exact Json.readsAs_whole (Nat.lt_of_lt_of_le hsize (Nat.le_trans hshort hlong))

end Literal

/-! ## Reading back -/

namespace Literal

open Literal.Tensor (untilZero)

theorem length_untilZero_le (s : Shape) : (untilZero s).length ≤ s.length := by
  induction s with
  | nil => exact le_rfl
  | cons n s ih =>
    cases n with
    | zero => exact Nat.succ_le_succ (Nat.zero_le _)
    | succ n => exact Nat.succ_le_succ ih

/-- What is read back, when the elements are written as those of the type `u` with the codes `g` and
are found to have the codes `k` in their common type. -/
theorem data_write {l : Literal} {u : ElementType} {g k : ℤ → ℤ} (hrank : l.shape.length ≤ maxAxes)
    (hlen : l.codes.length = l.shape.size)
    (hread : ∀ c ∈ l.codes, Json.ReadsAs (leaf l.type c) (leaf u (g c)))
    (hcode : ∀ c ∈ l.codes.map g, Host.code
      (Host.commonType ((l.codes.map g).map fun c => Host.leafType (leaf u c))) (leaf u c) =
        .ok (k c)) :
    (FileContent.text (Json.write l.toValue)).data = .ok
      ⟨Host.commonType ((l.codes.map g).map fun c => Host.leafType (leaf u c)),
        untilZero l.shape, (l.codes.map g).map k⟩ := by
  have hlen' : (l.codes.map g).length = l.shape.size := by rw [List.length_map, hlen]
  have hall : (l.codes.map g).take l.shape.size = l.codes.map g :=
    List.take_of_length_le hlen'.le
  have htypes := Host.types_nest (t := u) hlen'.ge
  have hcodes := Host.codes_nest hcode hlen'.ge
  rw [hall] at htypes hcodes
  rw [FileContent.data, toValue, Json.read_write (nest_readsAs hread hlen.ge)]
  show Host.ofValue none (nest u l.shape (l.codes.map g)) = _
  unfold Host.ofValue
  rw [Host.isTracked_nest, Host.shape?_nest, htypes]
  have hshort : ¬ maxAxes < (untilZero l.shape).length := by
    have := length_untilZero_le l.shape
    omega
  simp only [Bool.false_eq_true, if_false, if_neg hshort, Option.getD_none, hcodes]
  rfl

/-- What an array is read back as: its axes up to the first that is empty, and elements that count
the same, unless whole numbers are brought to floating point. -/
structure ReadBack (l back : Literal) : Prop where
  shape_eq : back.shape = untilZero l.shape
  amounts_eq : ¬ l.Straddles → back.amounts = l.amounts
  mixed : l.Straddles → back.type = .float64 ∧ back.codes = l.codes.map (l.type.convert .float64)
  /-- Then each number comes back as one that is nearest to it in floating point. -/
  nearest : l.Straddles → ∀ c ∈ l.codes, ∃ v : ℚ,
    ElementType.amount .float64 (l.type.convert .float64 c) = .number v ∧
      ∀ bits q, (binary64.read bits).amount = .number q → |v - c| ≤ |q - c|

theorem ReadBack.of_amounts {l back : Literal} (hone : ¬ l.Straddles)
    (hshape : back.shape = untilZero l.shape) (hamounts : back.amounts = l.amounts) :
    l.ReadBack back :=
  ⟨hshape, fun _ => hamounts, fun h => absurd h hone, fun h => absurd h hone⟩

section Types

variable {l : Literal} (hs : l.Sound) (hrank : l.shape.length ≤ maxAxes)
include hs hrank

theorem readBack_nil (hnil : l.codes = []) :
    ∃ back, (FileContent.text (Json.write l.toValue)).data = .ok back ∧ l.ReadBack back := by
  have hstraddles : ¬ l.Straddles := fun h => by
    obtain ⟨c, hc, _⟩ := h.2.1
    rw [hnil] at hc
    cases hc
  refine ⟨_, data_write (u := l.type) (g := id) (k := id) hrank hs.length_eq ?_ ?_,
    ReadBack.of_amounts hstraddles rfl ?_⟩
  · rw [hnil]
    nofun
  · rw [hnil]
    nofun
  · simp [amounts, hnil]

/-- Elements that all ask for one type, and are found in it with the codes they had. -/
theorem readBack_same {u : ElementType} (hne : l.codes ≠ [])
    (hread : ∀ c ∈ l.codes, Json.ReadsAs (leaf l.type c) (leaf l.type c))
    (htype : ∀ c ∈ l.codes, Host.leafType (leaf l.type c) = u) (hself : u.promote u = u)
    (hcode : ∀ c ∈ l.codes, Host.code u (leaf l.type c) = .ok c)
    (hamount : ∀ c ∈ l.codes, u.amount c = l.type.amount c) (hone : ¬ l.Straddles) :
    ∃ back, (FileContent.text (Json.write l.toValue)).data = .ok back ∧ l.ReadBack back := by
  have hcommon : Host.commonType ((l.codes.map id).map fun c => Host.leafType (leaf l.type c)) =
      u := by
    refine Host.commonType_of_forall (by simpa using hne) ?_ hself
    intro x hx
    rw [List.map_id] at hx
    obtain ⟨c, hc, rfl⟩ := List.mem_map.mp hx
    exact htype c hc
  have hdata := data_write (u := l.type) (g := id) (k := id) hrank hs.length_eq hread (by
    rw [hcommon, List.map_id]
    exact hcode)
  rw [hcommon, List.map_id, List.map_id] at hdata
  exact ⟨_, hdata, ReadBack.of_amounts hone rfl (List.map_congr_left hamount)⟩

theorem readBack_boolean (htype : l.type = .boolean) (hne : l.codes ≠ []) :
    ∃ back, (FileContent.text (Json.write l.toValue)).data = .ok back ∧ l.ReadBack back := by
  have hstraddles : ¬ l.Straddles := fun h => by
    have := htype.symm.trans h.1
    cases this
  have hcodes := hs.isCode
  rw [htype] at hcodes
  refine readBack_same hs hrank (u := .boolean) hne ?_ ?_ rfl ?_ ?_ hstraddles
  · rw [htype]
    exact fun c _ => Json.readsAs_boolean _
  · rw [htype]
    exact fun c _ => rfl
  · rw [htype]
    intro c hc
    rcases hcodes c hc with rfl | rfl <;> rfl
  · rw [htype]
    exact fun c _ => rfl

/-- Floating-point numbers come back with 64 bits. -/
theorem readBack_float (hfloat : l.type = .float32 ∨ l.type = .float64) (hne : l.codes ≠ []) :
    ∃ back, (FileContent.text (Json.write l.toValue)).data = .ok back ∧ l.ReadBack back := by
  have hstraddles : ¬ l.Straddles := fun h => by
    rcases hfloat with hf | hf <;> · have := hf.symm.trans h.1; cases this
  have hleaf : ∀ c, leaf l.type c = .float (l.type.convert .float64 c).toNat := fun c => by
    rcases hfloat with hf | hf <;> rw [hf] <;> rfl
  have hamount : ∀ c, (binary64.read (l.type.convert .float64 c).toNat).amount =
      l.type.amount c := fun c => by
    rcases hfloat with hf | hf <;> rw [hf]
    · exact Number.amount_write (Number.fits_binary64_of_binary32 c.toNat)
    · rfl
  generalize hg : (fun c : ℤ =>
    (binary64.write (binary64.read (l.type.convert .float64 c).toNat) : ℤ)) = g
  have hcommon : Host.commonType ((l.codes.map g).map fun c =>
      Host.leafType (leaf .float64 c)) = .float64 := by
    refine Host.commonType_of_forall (by simpa using hne) ?_ rfl
    intro x hx
    obtain ⟨c, _, rfl⟩ := List.mem_map.mp hx
    rfl
  have hdata := data_write (u := .float64) (g := g) (k := fun c => (c.toNat : ℤ)) hrank
    hs.length_eq (fun c _ => by
      rw [hleaf, ← hg]
      exact Json.readsAs_float _) (by
    rw [hcommon]
    exact fun c _ => rfl)
  rw [hcommon, List.map_map] at hdata
  refine ⟨_, hdata, ReadBack.of_amounts hstraddles rfl ?_⟩
  rw [amounts, amounts, List.map_map]
  refine List.map_congr_left fun c _ => ?_
  rw [← hamount, ← Number.amount_write (Number.Format.fits_read _ _), ← hg]
  rfl

/-- Numbers that straddle the greatest one with a sign are brought to floating point. -/
theorem readBack_mixed (hmixed : l.Straddles) :
    ∃ back, (FileContent.text (Json.write l.toValue)).data = .ok back ∧ l.ReadBack back := by
  obtain ⟨htype, ⟨a, ha, hsmall⟩, b, hb, hlarge⟩ := id hmixed
  have hwide : ∀ c ∈ l.codes, _ := fun c hc => (hs.isCode c hc).wide (htype ▸ rfl)
  have hrange : ∀ c ∈ l.codes, 0 ≤ c ∧ c < twoTo 64 := fun c hc => by
    have := hs.isCode c hc
    rw [htype] at this
    exact (ElementType.unsigned_inRange .w64).mp this
  have hcommon : Host.commonType ((l.codes.map id).map fun c =>
      Host.leafType (leaf .uint64 c)) = .float64 := by
    rw [List.map_id]
    refine Host.commonType_mixed ?_ ?_ ?_
    · intro x hx
      obtain ⟨c, hc, rfl⟩ := List.mem_map.mp hx
      rcases hwide c hc with h | h
      · exact .inl (Host.whole_int64 h.1 h.2).1
      · exact .inr (Host.whole_uint64 h.2.1 h.2.2).1
    · refine List.mem_map.mpr ⟨a, ha, (Host.whole_int64 ?_ hsmall).1⟩
      have := hrange a ha
      omega
    · exact List.mem_map.mpr ⟨b, hb, (Host.whole_uint64 hlarge (hrange b hb).2).1⟩
  have hdata := data_write (u := .uint64) (g := id) (k := ElementType.uint64.convert .float64)
    hrank hs.length_eq (fun c hc => by
      rw [htype]
      exact readsAs_whole (hwide c hc)) (by
    rw [hcommon, List.map_id]
    exact fun c hc => Host.whole_float64 (hrange c hc).1 (hrange c hc).2)
  rw [hcommon, List.map_id] at hdata
  refine ⟨_, hdata, rfl, fun h => absurd hmixed h, fun _ => ⟨rfl, by rw [htype]⟩, ?_⟩
  rw [htype]
  intro _ c hc
  exact Number.ofInt_nearest (hrange c hc).1 (hrange c hc).2

/-- Plain whole numbers ask for 64 bits, with a sign where they fit. -/
theorem readBack_whole (hwhole : l.type.isWhole = true) (hne : l.codes ≠ []) :
    ∃ back, (FileContent.text (Json.write l.toValue)).data = .ok back ∧ l.ReadBack back := by
  have hleaf : ∀ c, leaf l.type c = .whole c := by
    generalize l.type = t at hwhole
    cases t <;> first | exact fun c => rfl | cases hwhole
  have hamount : ∀ c, l.type.amount c = .number c := by
    generalize l.type = t at hwhole
    cases t <;> first | exact fun c => rfl | cases hwhole
  have hwide : ∀ c ∈ l.codes, _ := fun c hc => (hs.isCode c hc).wide hwhole
  have hread : ∀ c ∈ l.codes, Json.ReadsAs (leaf l.type c) (leaf l.type c) := fun c hc => by
    rw [hleaf]
    exact readsAs_whole (hwide c hc)
  by_cases hlarge : ∃ c ∈ l.codes, (twoTo 63 : ℤ) ≤ c
  · have htype : l.type = .uint64 := by
      obtain ⟨c, hc, hle⟩ := hlarge
      rcases hwide c hc with h | h
      · omega
      · exact h.1
    by_cases hsmall : ∃ c ∈ l.codes, c < twoTo 63
    · exact readBack_mixed hs hrank ⟨htype, hsmall, hlarge⟩
    · push Not at hsmall
      have hfound : ∀ c ∈ l.codes, _ := fun c hc => Host.whole_uint64 (hsmall c hc) (by
        have := hwide c hc
        have := hsmall c hc
        omega)
      refine readBack_same hs hrank (u := .uint64) hne hread ?_ rfl ?_ ?_ ?_
      · exact fun c hc => (congrArg _ (hleaf c)).trans (hfound c hc).1
      · exact fun c hc => (congrArg _ (hleaf c)).trans (hfound c hc).2
      · exact fun c _ => (hamount c).symm
      · rintro ⟨-, ⟨c, hc, hlt⟩, -⟩
        exact absurd hlt (not_lt.mpr (hsmall c hc))
  · push Not at hlarge
    have hfound : ∀ c ∈ l.codes, _ := fun c hc => Host.whole_int64 (c := c) (by
      have := hwide c hc
      have := hlarge c hc
      omega) (hlarge c hc)
    refine readBack_same hs hrank (u := .int64) hne hread ?_ rfl ?_ ?_ ?_
    · exact fun c hc => (congrArg _ (hleaf c)).trans (hfound c hc).1
    · exact fun c hc => (congrArg _ (hleaf c)).trans (hfound c hc).2
    · exact fun c _ => (hamount c).symm
    · rintro ⟨-, -, c, hc, hle⟩
      exact absurd hle (not_le.mpr (hlarge c hc))

/-- An array written as nested lists is read back. -/
theorem exists_readBack :
    ∃ back, (FileContent.text (Json.write l.toValue)).data = .ok back ∧ l.ReadBack back := by
  by_cases hne : l.codes = []
  · exact readBack_nil hs hrank hne
  · have hnumeric := hs.numeric
    cases htype : l.type with
    | boolean => exact readBack_boolean hs hrank htype hne
    | signed w => exact readBack_whole hs hrank (htype ▸ rfl) hne
    | unsigned w => exact readBack_whole hs hrank (htype ▸ rfl) hne
    | float32 => exact readBack_float hs hrank (.inl htype) hne
    | float64 => exact readBack_float hs hrank (.inr htype) hne
    | other => exact absurd htype hnumeric

end Types

end Literal

end Hyperslab
