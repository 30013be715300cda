import Hyperslab.Json.Writer
import Hyperslab.Proofs.Shortest

/-!
# Numbers in a text of data

A number is written with digits, a point and an exponent in one of four ways, and in
each of them the digits that are read stand for the same decimal.  What follows a
number is the end of the text, a comma or a line feed, so reading stops there.
-/

namespace Hyperslab
namespace Json

open Number (digitText binary64)

/-! ## Digits -/

theorem digitsValue_digitText (n : ℕ) : digitsValue (digitText n) = n :=
  Nat.ofDigitChars_ten_toDigits

theorem isDigit_of_mem_digitText {n : ℕ} : ∀ c ∈ digitText n, isDigit c = true := fun _ hc =>
  Nat.isDigit_of_mem_toDigits (by decide) (by decide) hc

theorem isDigit_of_mem_zeros {k : ℕ} : ∀ c ∈ List.replicate k '0', isDigit c = true := fun _ hc =>
  List.eq_of_mem_replicate hc ▸ rfl

theorem digitsValue_zeros_append (k : ℕ) (ds : List Char) :
    digitsValue (List.replicate k '0' ++ ds) = digitsValue ds := by
  show Nat.ofDigitChars 10 (_ ++ ds) 0 = Nat.ofDigitChars 10 ds 0
  rw [Nat.ofDigitChars_append, Nat.ofDigitChars_replicate_zero, Nat.mul_zero]

theorem digitsValue_append_zeros (ds : List Char) (k : ℕ) :
    digitsValue (ds ++ List.replicate k '0') = Number.tenTo k * digitsValue ds := by
  show Nat.ofDigitChars 10 (ds ++ _) 0 = Nat.pow 10 k * Nat.ofDigitChars 10 ds 0
  rw [Nat.ofDigitChars_append, Nat.ofDigitChars_replicate_zero]
  rfl

/-- The digits of a positive number do not start with a zero. -/
theorem head_digitText {n : ℕ} (hn : 0 < n) : (digitText n).head? ≠ some '0' := by
  induction n using Nat.strongRecOn with
  | ind n ih =>
    rw [digitText, Nat.toDigits_eq_if (by decide)]
    split_ifs with hlt
    · rw [List.head?_cons, Ne, Option.some.injEq, Nat.digitChar_eq_zero]
      omega
    · rw [List.head?_append_of_ne_nil _ Nat.toDigits_ne_nil]
      exact ih (n / 10) (by omega) (by omega)

section Scan

variable {ds rest : List Char} (hdigits : ∀ c ∈ ds, isDigit c = true)
  (hrest : ∀ c ∈ rest.head?, isDigit c = false)
include hdigits hrest

theorem takeWhile_digits : (ds ++ rest).takeWhile isDigit = ds := by
  rw [List.takeWhile_append_of_pos hdigits]
  cases rest with
  | nil => exact List.append_nil ds
  | cons c rest => rw [List.takeWhile_cons_of_neg (by simp [hrest c rfl]), List.append_nil]

theorem dropWhile_digits : (ds ++ rest).dropWhile isDigit = rest := by
  rw [List.dropWhile_append_of_pos hdigits]
  cases rest with
  | nil => rfl
  | cons c rest => exact List.dropWhile_cons_of_neg (by simp [hrest c rfl])

theorem scanWhole_digits (hne : ds ≠ []) (hzero : ds.head? ≠ some '0') :
    scanWhole (ds ++ rest) = (ds, rest) := by
  obtain ⟨d, ds, rfl⟩ := List.exists_cons_of_ne_nil hne
  have hd : d ≠ '0' := fun h => hzero (congrArg some h)
  rw [scanWhole, takeWhile_digits hdigits hrest, dropWhile_digits hdigits hrest]
  rintro rest' h
  exact hd (List.cons.inj h).1

theorem scanFraction_digits (hne : ds ≠ []) : scanFraction ('.' :: (ds ++ rest)) = (ds, rest) := by
  rw [scanFraction, takeWhile_digits hdigits hrest, dropWhile_digits hdigits hrest, if_neg]
  simpa using hne

theorem scanExponent_digits (hne : ds ≠ []) (negative : Bool) :
    scanExponent ('e' :: (if negative then '-' else '+') :: (ds ++ rest)) =
      (some ((if negative then -1 else 1) * (digitsValue ds : ℤ)), rest) := by
  cases negative <;>
    simp [scanExponent, takeWhile_digits hdigits hrest, dropWhile_digits hdigits hrest, hne]

end Scan

theorem scanFraction_none {cs : List Char} (h : ∀ c ∈ cs.head?, c ≠ '.') :
    scanFraction cs = ([], cs) := by
  cases cs with
  | nil => rfl
  | cons c cs =>
    rw [scanFraction]
    rintro rest h'
    exact h c rfl (List.cons.inj h').1

theorem scanExponent_none {cs : List Char} (h : ∀ c ∈ cs.head?, c ≠ 'e' ∧ c ≠ 'E') :
    scanExponent cs = (none, cs) := by
  cases cs with
  | nil => rfl
  | cons c cs =>
    obtain ⟨h₁, h₂⟩ := h c rfl
    simp [scanExponent, h₁, h₂]

/-! ## Numbers with a fraction or an exponent -/

/-- What may follow a number. -/
def Stops (rest : List Char) : Prop := ∀ c ∈ rest.head?, c = ',' ∨ c = '\n'

/-- A number by the digits before the point and behind it, and the exponent. -/
structure Numeral where
  whole : List Char
  fraction : List Char
  exponent : Option ℤ

namespace Numeral

def exponentText (n : Numeral) : List Char :=
  match n.exponent with
  | none => []
  | some e => 'e' :: Number.data.exponentText e

def text (n : Numeral) : List Char :=
  n.whole ++ (if n.fraction = [] then [] else '.' :: n.fraction) ++ n.exponentText

def decimal (n : Numeral) : Number.Decimal :=
  ⟨digitsValue (n.whole ++ n.fraction), n.exponent.getD 0 - n.fraction.length⟩

/-- A number is not whole, and starts with a zero only if that is all there is before the point. -/
structure Proper (n : Numeral) : Prop where
  whole_digits : ∀ c ∈ n.whole, isDigit c = true
  fraction_digits : ∀ c ∈ n.fraction, isDigit c = true
  nonempty : n.whole ≠ []
  start : n.whole = ['0'] ∨ n.whole.head? ≠ some '0'
  real : n.fraction ≠ [] ∨ n.exponent.isSome

variable {n : Numeral} {rest : List Char}

theorem exponentText_head (hrest : Stops rest) :
    ∀ c ∈ (n.exponentText ++ rest).head?, c = 'e' ∨ c = ',' ∨ c = '\n' := by
  intro c hc
  unfold exponentText at hc
  split at hc
  · exact .inr (hrest c hc)
  · exact .inl (Option.some.inj hc).symm

theorem scanExponent_text (hrest : Stops rest) :
    scanExponent (n.exponentText ++ rest) = (n.exponent, rest) := by
  unfold exponentText
  split
  · rename_i he
    rw [he]
    exact scanExponent_none fun c hc => by rcases hrest c hc with rfl | rfl <;> decide
  · rename_i e he
    have hscan := @scanExponent_digits
      (List.replicate (2 - (digitText e.natAbs).length) '0' ++ digitText e.natAbs) rest
      (fun c hc => (List.mem_append.mp hc).elim (isDigit_of_mem_zeros c)
        (isDigit_of_mem_digitText c))
      (fun c hc => by rcases hrest c hc with rfl | rfl <;> decide)
      (by simp [digitText, Nat.toDigits_ne_nil]) (decide (e < 0))
    rw [digitsValue_zeros_append, digitsValue_digitText] at hscan
    have hsign : (if decide (e < 0) = true then -1 else 1) * (e.natAbs : ℤ) = e := by
      simp only [decide_eq_true_eq]
      split_ifs <;> omega
    rw [hsign] at hscan
    rw [he, ← hscan]
    simp only [decide_eq_true_eq]
    rfl

theorem scanFraction_text (h : n.Proper) (hrest : Stops rest) :
    scanFraction ((if n.fraction = [] then [] else '.' :: n.fraction) ++
      (n.exponentText ++ rest)) = (n.fraction, n.exponentText ++ rest) := by
  have hhead := exponentText_head (n := n) hrest
  split_ifs with hfraction
  · rw [hfraction]
    exact scanFraction_none fun c hc => by rcases hhead c hc with rfl | rfl | rfl <;> decide
  · exact scanFraction_digits h.fraction_digits
      (fun c hc => by rcases hhead c hc with rfl | rfl | rfl <;> decide) hfraction

theorem scanWhole_text (h : n.Proper) (hrest : Stops rest) :
    scanWhole (n.text ++ rest) = (n.whole, (if n.fraction = [] then [] else '.' :: n.fraction) ++
      (n.exponentText ++ rest)) := by
  rw [text, List.append_assoc, List.append_assoc]
  have hhead := exponentText_head (n := n) hrest
  rcases h.start with hzero | hzero
  · rw [hzero]
    rfl
  · refine scanWhole_digits h.whole_digits (fun c hc => ?_) h.nonempty hzero
    split_ifs at hc
    · rcases hhead c hc with rfl | rfl | rfl <;> decide
    · rw [← Option.some.inj hc]
      decide

/-- A number that is not whole is read as the pattern of its decimal. -/
theorem scanNumber_text (h : n.Proper) (hrest : Stops rest) (negative : Bool) :
    scanNumber negative (n.text ++ rest) =
      some (.float (binary64.withSign negative (n.decimal.round binary64)), rest) := by
  have hreal : (n.fraction.isEmpty && n.exponent.isNone) = false := by
    rcases h.real with hf | he
    · rw [List.isEmpty_eq_false_iff.mpr hf, Bool.false_and]
    · rw [Option.isNone_eq_false_iff.mpr he, Bool.and_false]
  have hwhole : n.whole.isEmpty = false := List.isEmpty_eq_false_iff.mpr h.nonempty
  unfold scanNumber
  rw [scanWhole_text h hrest]
  dsimp only
  rw [scanFraction_text h hrest]
  dsimp only
  rw [scanExponent_text hrest]
  dsimp only
  rw [hwhole, hreal, if_neg Bool.false_ne_true, if_neg Bool.false_ne_true]
  rfl

end Numeral

/-! ## Decimals -/

/-- The digits of a positive number. -/
structure Leading (ds : List Char) : Prop where
  digits : ∀ c ∈ ds, isDigit c = true
  start : ds.head? ≠ some '0'
  nonempty : ds ≠ []

theorem leading_digitText {n : ℕ} (hn : 0 < n) : Leading (digitText n) :=
  ⟨isDigit_of_mem_digitText, head_digitText hn, Nat.toDigits_ne_nil⟩

/-- A text is that of a number which stands for a decimal. -/
def IsText (cs : List Char) (d : Number.Decimal) : Prop :=
  ∃ n : Numeral, cs = n.text ∧ n.Proper ∧ n.decimal.value = d.value

namespace Leading

variable {ds : List Char} (h : Leading ds)
include h

/-- Digits cut behind some of them. -/
theorem proper_cut {k : ℕ} (hk : 0 < k) {e : Option ℤ} (hreal : k < ds.length ∨ e.isSome) :
    Numeral.Proper ⟨ds.take k, ds.drop k, e⟩ where
  whole_digits c hc := h.digits c (List.mem_of_mem_take hc)
  fraction_digits c hc := h.digits c (List.mem_of_mem_drop hc)
  nonempty := by
    rw [Ne, List.take_eq_nil_iff]
    exact fun h' => h'.elim hk.ne' h.nonempty
  start := by
    right
    rw [List.head?_take, if_neg hk.ne']
    exact h.start
  real := by
    refine hreal.imp_left fun hlt => ?_
    rw [Ne, List.drop_eq_nil_iff]
    omega

/-- The point stands before all digits. -/
theorem isText_before (k : ℕ) :
    IsText ('0' :: '.' :: (List.replicate k '0' ++ ds)) ⟨digitsValue ds, -(k + ds.length : ℕ)⟩ := by
  refine ⟨⟨['0'], List.replicate k '0' ++ ds, none⟩, ?_,
    ⟨?_, ?_, List.cons_ne_nil _ _, .inl rfl, .inl (by simp [h.nonempty])⟩, ?_⟩
  · simp [Numeral.text, Numeral.exponentText, h.nonempty]
  · exact fun c hc => List.mem_singleton.mp hc ▸ rfl
  · exact fun c hc => (List.mem_append.mp hc).elim (isDigit_of_mem_zeros c) (h.digits c)
  · have hdigits : digitsValue ('0' :: (List.replicate k '0' ++ ds)) = digitsValue ds :=
      digitsValue_zeros_append (k + 1) ds
    rw [Numeral.decimal, List.cons_append, List.nil_append, hdigits, Option.getD_none, zero_sub,
      List.length_append, List.length_replicate]

/-- The point stands behind all digits. -/
theorem isText_behind (k : ℕ) :
    IsText (ds ++ List.replicate k '0' ++ ['.', '0']) ⟨digitsValue ds, k⟩ := by
  refine ⟨⟨ds ++ List.replicate k '0', ['0'], none⟩, ?_,
    ⟨?_, ?_, by simp [h.nonempty], .inr ?_, .inl (List.cons_ne_nil _ _)⟩, ?_⟩
  · simp [Numeral.text, Numeral.exponentText]
  · exact fun c hc => (List.mem_append.mp hc).elim (h.digits c) (isDigit_of_mem_zeros c)
  · exact fun c hc => List.mem_singleton.mp hc ▸ rfl
  · rw [List.head?_append_of_ne_nil _ h.nonempty]
    exact h.start
  · rw [Numeral.decimal, Number.Decimal.value, Number.Decimal.value, List.append_assoc,
      ← List.replicate_succ', digitsValue_append_zeros, Nat.cast_mul, Number.cast_tenTo,
      Nat.cast_succ, Number.ten_zpow_succ]
    show 10 * 10 ^ (k : ℤ) * (digitsValue ds : ℚ) * 10 ^ (-1 : ℤ) = _
    rw [zpow_neg_one]
    field_simp

/-- The point stands behind the first `k` digits. -/
theorem isText_within {k : ℕ} (hk : 0 < k) (hlt : k < ds.length) :
    IsText (ds.take k ++ '.' :: ds.drop k) ⟨digitsValue ds, -(ds.length - k : ℕ)⟩ := by
  refine ⟨⟨ds.take k, ds.drop k, none⟩, ?_, h.proper_cut hk (.inl hlt), ?_⟩
  · have hdrop : ds.drop k ≠ [] := by
      rw [Ne, List.drop_eq_nil_iff]
      omega
    simp only [Numeral.text, Numeral.exponentText, if_neg hdrop, List.append_nil]
  · rw [Numeral.decimal, List.take_append_drop, List.length_drop, Option.getD_none, zero_sub]

/-- The point stands behind the first digit, and an exponent follows. -/
theorem isText_exponent (e : ℤ) :
    IsText (ds.take 1 ++ (if (ds.drop 1).isEmpty then [] else '.' :: ds.drop 1) ++
      'e' :: Number.data.exponentText e) ⟨digitsValue ds, e - (ds.length - 1 : ℕ)⟩ := by
  refine ⟨⟨ds.take 1, ds.drop 1, some e⟩, ?_, h.proper_cut one_pos (.inr rfl), ?_⟩
  · simp only [Numeral.text, Numeral.exponentText, List.isEmpty_iff, List.append_assoc]
  · rw [Numeral.decimal, List.take_append_drop, List.length_drop, Option.getD_some]

end Leading

/-- A decimal is written as a number that stands for it. -/
theorem isText_decimal {d : Number.Decimal} (hd : 0 < d.digits) :
    IsText (Number.data.decimal d) d := by
  have h := leading_digitText hd
  have hvalue := digitsValue_digitText d.digits
  unfold Number.Style.decimal
  dsimp only
  generalize digitText d.digits = ds at *
  have hpower : ∀ {cs : List Char} {power : ℤ}, IsText cs ⟨digitsValue ds, power⟩ →
      power = d.power → IsText cs d := by
    rintro cs power htext rfl
    rwa [hvalue] at htext
  have hlen := List.length_pos_of_ne_nil h.nonempty
  by_cases hplain : (decide (Number.data.low < ds.length + d.power) &&
      decide (ds.length + d.power ≤ Number.data.high)) = true
  · rw [if_pos hplain]
    split_ifs with hsmall hlarge
    · exact hpower (h.isText_before _) (by omega)
    · exact hpower (h.isText_behind _) (by omega)
    · exact hpower (h.isText_within (by omega) (by omega)) (by omega)
  · rw [if_neg hplain]
    exact hpower (h.isText_exponent _) (by omega)

/-- What is written for a finite number is read as its size. -/
theorem exists_numeral {m : ℕ} {p : ℤ} (h : binary64.Holds m p) :
    ∃ n : Numeral, (if m = 0 then ['0', '.', '0'] else
      Number.data.decimal (Number.shortest binary64 m p)) = n.text ∧ n.Proper ∧
      n.decimal.round binary64 =
        binary64.roundQuotient (m * Number.twoTo p.toNat) (Number.twoTo (-p).toNat) := by
  split_ifs with hm
  · have hdigits : ∀ c ∈ ['0'], isDigit c = true := fun c hc => List.mem_singleton.mp hc ▸ rfl
    refine ⟨⟨['0'], ['0'], none⟩, rfl, ⟨hdigits, hdigits, List.cons_ne_nil _ _, .inl rfl,
      .inl (List.cons_ne_nil _ _)⟩, ?_⟩
    rw [hm, Nat.zero_mul, Number.Format.roundQuotient, if_pos rfl, Number.Decimal.round]
    exact if_pos rfl
  · have hm : 0 < m := Nat.pos_of_ne_zero hm
    have hrounds := Number.shortest_rounds h hm
    obtain ⟨n, htext, hproper, hvalue⟩ := isText_decimal (hrounds.digits_pos hm)
    rw [← hvalue] at hrounds
    refine ⟨n, htext, hproper, ?_⟩
    rw [Number.Decimal.round_eq h hm hrounds]
    exact (Number.Format.roundQuotient_of_holds h hm (Number.twoTo_pos _)
      (Number.Format.cast_size m p)).symm

/-! ## Tokens -/

theorem scan_unsigned {c : Char} (hc : isDigit c = true) (cs : List Char) :
    scan (c :: cs) = (scanNumber false (c :: cs)).map fun (v, rest) => (.atom v, rest) := by
  unfold scan
  split <;> first | rfl | (rename_i h; obtain ⟨rfl, -⟩ := List.cons.inj h; cases hc)

theorem scan_signed {c : Char} (hc : isDigit c = true) (cs : List Char) :
    scan ('-' :: c :: cs) = (scanNumber true (c :: cs)).map fun (v, rest) => (.atom v, rest) := by
  rw [scan]
  rintro rest h
  rw [(List.cons.inj h).1] at hc
  cases hc

/-- A number with or without a sign is scanned as its digits are. -/
theorem scan_digits {ds rest rest' : List Char} {v : Value} (hne : ds ≠ [])
    (hdigit : ∀ c ∈ ds.head?, isDigit c = true) (negative : Bool)
    (h : scanNumber negative (ds ++ rest) = some (v, rest')) :
    scan ((if negative then '-' :: ds else ds) ++ rest) = some (.atom v, rest') := by
  obtain ⟨c, ds, rfl⟩ := List.exists_cons_of_ne_nil hne
  have h : scanNumber negative (c :: (ds ++ rest)) = some (v, rest') := h
  cases negative
  · show scan (c :: (ds ++ rest)) = _
    rw [scan_unsigned (hdigit c rfl), h]
    rfl
  · show scan ('-' :: c :: (ds ++ rest)) = _
    rw [scan_signed (hdigit c rfl), h]
    rfl

theorem toList_toString (n : ℤ) : (toString n).toList =
    if decide (n < 0) then '-' :: digitText n.natAbs else digitText n.natAbs := by
  have hnat : ∀ k : ℕ, (toString k).toList = digitText k := fun k => by
    rw [Nat.toString_eq_ofList_toDigits, String.toList_ofList]
    rfl
  cases n with
  | ofNat k =>
    rw [if_neg (by simp)]
    exact hnat k
  | negSucc k =>
    rw [if_pos (by simp)]
    show ("-" ++ toString (k + 1)).toList = _
    rw [String.toList_append, hnat]
    rfl

section Atoms

variable {rest : List Char} (hrest : Stops rest)
include hrest

theorem scanNumber_digitText (n : ℕ) (negative : Bool) :
    scanNumber negative (digitText n ++ rest) =
      some (.whole (if negative then -(n : ℤ) else n), rest) := by
  have hstop : ∀ c ∈ rest.head?, isDigit c = false ∧ c ≠ '.' ∧ c ≠ 'e' ∧ c ≠ 'E' := fun c hc => by
    rcases hrest c hc with rfl | rfl <;> decide
  have hwhole : scanWhole (digitText n ++ rest) = (digitText n, rest) := by
    rcases Nat.eq_zero_or_pos n with rfl | hn
    · rfl
    · exact scanWhole_digits isDigit_of_mem_digitText (fun c hc => (hstop c hc).1)
        Nat.toDigits_ne_nil (head_digitText hn)
  have hne : (digitText n).isEmpty = false := List.isEmpty_eq_false_iff.mpr Nat.toDigits_ne_nil
  unfold scanNumber
  rw [hwhole]
  dsimp only
  rw [scanFraction_none fun c hc => (hstop c hc).2.1]
  dsimp only
  rw [scanExponent_none fun c hc => (hstop c hc).2.2]
  dsimp only
  rw [hne, if_neg Bool.false_ne_true, digitsValue_digitText]
  rfl

theorem scan_whole (n : ℤ) :
    scan (atomForm (.whole n) ++ rest) = some (.atom (.whole n), rest) := by
  have h := scan_digits (Nat.toDigits_ne_nil (n := n.natAbs) (b := 10))
    (fun c hc => isDigit_of_mem_digitText c (List.mem_of_head? hc)) (decide (n < 0))
    (scanNumber_digitText hrest n.natAbs (decide (n < 0)))
  have hsign : (if decide (n < 0) = true then -(n.natAbs : ℤ) else n.natAbs) = n := by
    simp only [decide_eq_true_eq]
    split_ifs <;> omega
  rw [hsign] at h
  rwa [atomForm, toList_toString]

theorem scan_numeral {n : Numeral} (h : n.Proper) (negative : Bool) :
    scan ((if negative then '-' :: n.text else n.text) ++ rest) =
      some (.atom (.float (binary64.withSign negative (n.decimal.round binary64))), rest) := by
  have hhead : n.text.head? = n.whole.head? := by
    rw [Numeral.text, List.append_assoc, List.head?_append_of_ne_nil _ h.nonempty]
  refine scan_digits ?_ (fun c hc => ?_) negative (Numeral.scanNumber_text h hrest negative)
  · rw [Numeral.text, List.append_assoc]
    exact List.append_ne_nil_of_left_ne_nil h.nonempty _
  · rw [hhead] at hc
    exact h.whole_digits c (List.mem_of_head? hc)

/-- A pattern is read back as the one that is written for what it stands for. -/
theorem scan_float (bits : ℕ) : scan (atomForm (.float bits) ++ rest) =
    some (.atom (.float (binary64.write (binary64.read bits))), rest) := by
  have hform : atomForm (.float bits) = (Number.data.write binary64 bits).toList := rfl
  rw [hform, Number.Style.write]
  cases hread : binary64.read bits with
  | nan => rfl
  | infinite negative => cases negative <;> rfl
  | finite negative m p =>
    obtain ⟨n, htext, hproper, hround⟩ :=
      exists_numeral (Number.Format.read_eq_finite hread).1
    dsimp only
    rw [htext, String.toList_ofList, scan_numeral hrest hproper, hround]
    rfl

end Atoms

end Json
end Hyperslab
