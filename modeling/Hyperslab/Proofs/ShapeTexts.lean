import Mathlib.Data.List.Forall2
import Hyperslab.Number.Power
import Hyperslab.Shape
import Hyperslab.ShapeText
import Hyperslab.Proofs.Trimming

/-!
# Shapes read back from their texts

A shape is printed with its extents between commas, in square brackets or as a tuple.  Either text
splits into padded numbers and blank parts, whatever stands around the numbers and around the
whole; so the extents are read back, up to the number of digits that a numeral may have.
-/

namespace Hyperslab

namespace Text

variable {c : Char} {ds : List Char}

/-! ## Digits and blanks -/

theorem digit?_of_isDigit (h : c.isDigit = true) : digit? c = some (c.toNat - '0'.toNat) := by
  have hbounds : 48 ≤ c.toNat ∧ c.toNat < 58 := by
    obtain ⟨hlow, hhigh⟩ : '0'.toNat ≤ c.toNat ∧ c.toNat ≤ '9'.toNat := Char.isDigit_iff_toNat.mp h
    exact ⟨hlow, Nat.lt_succ_of_le hhigh⟩
  have hzero : zeros = '0'.toNat :: zeros.tail := rfl
  rw [digit?, hzero, List.find?_cons_of_pos (by simpa using hbounds)]
  rfl

theorem digit?_of_isBlank (h : isBlank c = true) : digit? c = none := by
  have hapart : ∀ z ∈ zeros, ∀ d ∈ List.range 10, isBlank (Char.ofNat (z + d)) = false := by
    decide +kernel
  rw [digit?, Option.map_eq_none_iff, List.find?_eq_none]
  intro z hz hdigit
  obtain ⟨hlow, hhigh⟩ : z ≤ c.toNat ∧ c.toNat < z + 10 := by simpa using hdigit
  have hfar := hapart z hz (c.toNat - z) (List.mem_range.mpr (by omega))
  rw [Nat.add_sub_cancel' hlow, Char.ofNat_toNat, h] at hfar
  cases hfar

theorem isBlank_of_isNumeralBlank (h : isNumeralBlank c = true) : isBlank c = true :=
  (Bool.and_eq_true_iff.mp h).1

theorem isBlank_of_isDigit (h : c.isDigit = true) : isBlank c = false := by
  refine Bool.eq_false_iff.mpr fun hblank => ?_
  have hnone := digit?_of_isBlank hblank
  rw [digit?_of_isDigit h] at hnone
  cases hnone

theorem isNumeralBlank_of_isDigit (h : c.isDigit = true) : isNumeralBlank c = false := by
  rw [isNumeralBlank, isBlank_of_isDigit h, Bool.false_and]

/-! ## Numerals -/

theorem toList_toString (n : ℕ) : (toString n).toList = Nat.toDigits 10 n := by
  rw [Nat.toString_eq_repr, Nat.toList_repr]

theorem toList_toString_ne_nil (n : ℕ) : (toString n).toList ≠ [] := by
  rw [toList_toString]
  exact Nat.toDigits_ne_nil

theorem isDigit_of_mem_toString {n : ℕ} (hc : c ∈ (toString n).toList) : c.isDigit = true := by
  rw [toList_toString] at hc
  exact Nat.isDigit_of_mem_toDigits (by decide) (by decide) hc

theorem digitsFrom?_of_isDigit (h : ∀ c ∈ ds, c.isDigit = true) (value : ℕ) :
    digitsFrom? value ds = some (Nat.ofDigitChars 10 ds value) := by
  induction ds generalizing value with
  | nil => rfl
  | cons c ds ih =>
    obtain ⟨hc, hds⟩ := List.forall_mem_cons.mp h
    rw [digitsFrom?, digit?_of_isDigit hc, Option.bind_some, ih hds, Nat.ofDigitChars_cons]
    -- A digit is no underscore, so the equation for one does not apply.
    rintro d rest rfl
    cases hc

theorem signed?_toString (n : ℕ) : signed? (toString n).toList = some (n : ℤ) := by
  have hdigits : ∀ c ∈ (toString n).toList, c.isDigit = true := fun _ => isDigit_of_mem_toString
  have hvalue : Nat.ofDigitChars 10 (toString n).toList 0 = n := by
    rw [toList_toString, Nat.ofDigitChars_ten_toDigits]
  obtain ⟨c, ds, hcons⟩ := List.exists_cons_of_ne_nil (toList_toString_ne_nil n)
  rw [hcons] at hdigits hvalue ⊢
  obtain ⟨hc, hds⟩ := List.forall_mem_cons.mp hdigits
  have hread : digits? (c :: ds) = some n := by
    rw [digits?, digit?_of_isDigit hc, Option.bind_some, digitsFrom?_of_isDigit hds, ← hvalue,
      Nat.ofDigitChars_cons, Nat.mul_zero, Nat.zero_add]
  rw [signed?, hread]
  · rfl
  all_goals
    rintro rest hsign
    obtain ⟨rfl, -⟩ := List.cons.inj hsign
    cases hc

end Text

namespace ShapeText

open Text (isBlank isNumeralBlank maxDigits)

/-! ## Padded numbers -/

/-- A number in digits, with blanks around it that a numeral may have. -/
def Padded (n : ℕ) (cs : List Char) : Prop :=
  ∃ before after : List Char, before.all isNumeralBlank ∧ after.all isNumeralBlank ∧
    cs = before ++ (toString n).toList ++ after

namespace Padded

variable {n : ℕ} {cs : List Char}

theorem unpadded (n : ℕ) : Padded n (toString n).toList :=
  ⟨[], [], rfl, rfl, (List.append_nil _).symm⟩

theorem cons_blank (h : Padded n cs) : Padded n (' ' :: cs) := by
  obtain ⟨before, after, hbefore, hafter, rfl⟩ := h
  exact ⟨' ' :: before, after, hbefore, hafter, rfl⟩

theorem forall_mem (h : Padded n cs) : ∀ c ∈ cs, c.isDigit = true ∨ isBlank c = true := by
  obtain ⟨before, after, hbefore, hafter, rfl⟩ := h
  rw [List.all_eq_true] at hbefore hafter
  intro c hc
  rcases List.mem_append.mp hc with hc | hc
  · rcases List.mem_append.mp hc with hc | hc
    · exact .inr (Text.isBlank_of_isNumeralBlank (hbefore c hc))
    · exact .inl (Text.isDigit_of_mem_toString hc)
  · exact .inr (Text.isBlank_of_isNumeralBlank (hafter c hc))

theorem trim_isEmpty (h : Padded n cs) : (Text.trim cs).isEmpty = false := by
  obtain ⟨before, after, -, -, rfl⟩ := h
  obtain ⟨d, hd⟩ := List.exists_mem_of_ne_nil _ (Text.toList_toString_ne_nil n)
  rw [List.isEmpty_eq_false_iff, Ne, Text.trim, Text.trimWhile_eq_nil_iff]
  intro hblank
  have hd' := hblank d (List.mem_append_left _ (List.mem_append_right _ hd))
  rw [Text.isBlank_of_isDigit (Text.isDigit_of_mem_toString hd)] at hd'
  cases hd'

theorem countP_digits (h : Padded n cs) :
    (cs.countP fun c => (Text.digit? c).isSome) = (toString n).length := by
  obtain ⟨before, after, hbefore, hafter, rfl⟩ := h
  have hblanks : ∀ bs : List Char, bs.all isNumeralBlank →
      (bs.countP fun c => (Text.digit? c).isSome) = 0 := fun bs hbs => by
    rw [List.countP_eq_zero]
    intro c hc
    have hblank := Text.isBlank_of_isNumeralBlank (List.all_eq_true.mp hbs c hc)
    simp [Text.digit?_of_isBlank hblank]
  have hdigits : ((toString n).toList.countP fun c => (Text.digit? c).isSome) =
      (toString n).toList.length := by
    rw [List.countP_eq_length]
    intro c hc
    rw [Text.digit?_of_isDigit (Text.isDigit_of_mem_toString hc), Option.isSome_some]
  rw [List.countP_append, List.countP_append, hblanks before hbefore, hblanks after hafter,
    hdigits, Nat.zero_add, Nat.add_zero, String.length_toList]

/-- A padded number is read, unless it has too many digits. -/
theorem numeral? (h : Padded n cs) : Text.numeral? cs =
    if (toString n).length ≤ maxDigits then some (n : ℤ) else none := by
  rw [Text.numeral?, h.countP_digits]
  obtain ⟨before, after, hbefore, hafter, rfl⟩ := h
  rw [List.all_eq_true] at hbefore hafter
  rw [Text.trimWhile_append hbefore hafter (Text.trimmed_of_forall fun c hc =>
    Text.isNumeralBlank_of_isDigit (Text.isDigit_of_mem_toString hc)), Text.signed?_toString]
  split_ifs <;> first | rfl | omega

end Padded

/-! ## Lists of parts -/

/-- The extents have no more digits than a numeral may have. -/
def Legible (s : Shape) : Prop := ∀ n ∈ s, (toString n).length ≤ maxDigits

instance (s : Shape) : Decidable (Legible s) :=
  inferInstanceAs (Decidable (∀ n ∈ s, (toString n).length ≤ maxDigits))

/-- The parts of a text between its commas: the extents, padded, and blank parts. -/
inductive Lists : Shape → List (List Char) → Prop where
  | nil : Lists [] []
  | number {n : ℕ} {s : Shape} {part : List Char} {parts : List (List Char)} :
      Padded n part → Lists s parts → Lists (n :: s) (part :: parts)
  | blank {s : Shape} {part : List Char} {parts : List (List Char)} :
      part.all isBlank → Lists s parts → Lists s (part :: parts)

namespace Lists

variable {s : Shape} {parts : List (List Char)}

theorem forall_mem (h : Lists s parts) :
    ∀ part ∈ parts, ∀ c ∈ part, c.isDigit = true ∨ isBlank c = true := by
  induction h with
  | nil => exact List.forall_mem_nil _
  | number hpart _ ih => exact List.forall_mem_cons.mpr ⟨hpart.forall_mem, ih⟩
  | blank hpart _ ih =>
    exact List.forall_mem_cons.mpr ⟨fun c hc => .inr (List.all_eq_true.mp hpart c hc), ih⟩

theorem mapM_numeral? (h : Lists s parts) :
    (parts.filter fun part => !(Text.trim part).isEmpty).mapM Text.numeral? =
      if Legible s then some (s.map Int.ofNat) else none := by
  induction h with
  | nil => rfl
  | @number n s part parts hpart _ ih =>
    have hcons : Legible (n :: s) ↔ (toString n).length ≤ maxDigits ∧ Legible s :=
      List.forall_mem_cons
    rw [List.filter_cons_of_pos (by rw [hpart.trim_isEmpty]; rfl), List.mapM_cons, hpart.numeral?,
      ih]
    by_cases hn : (toString n).length ≤ maxDigits
    · by_cases hs : Legible s
      · rw [if_pos hn, if_pos hs, if_pos (hcons.mpr ⟨hn, hs⟩)]
        rfl
      · rw [if_pos hn, if_neg hs, if_neg fun h => hs (hcons.mp h).2]
        rfl
    · rw [if_neg hn, if_neg fun h => hn (hcons.mp h).1]
      rfl
  | @blank s part parts hpart _ ih =>
    have hempty : Text.trim part = [] := Text.trimWhile_eq_nil_iff.mpr (List.all_eq_true.mp hpart)
    rw [List.filter_cons_of_neg (by rw [hempty]; decide), ih]

theorem numbers?_intercalate (h : Lists s parts) :
    numbers? ([','].intercalate parts) = if Legible s then some (s.map Int.ofNat) else none := by
  rw [← h.mapM_numeral?, numbers?]
  rcases eq_or_ne parts [] with rfl | hne
  · rfl
  · rw [Text.splitAt_intercalate (fun part hpart hcomma => ?_) hne]
    rcases h.forall_mem part hpart ',' hcomma with h | h <;> cases h

/-- The text that is split has commas, digits and blanks only. -/
theorem mem_intercalate (h : Lists s parts) :
    ∀ c ∈ [','].intercalate parts, c = ',' ∨ c.isDigit = true ∨ isBlank c = true := by
  have hparts := h.forall_mem
  clear h
  induction parts with
  | nil => exact List.forall_mem_nil _
  | cons part parts ih =>
    obtain ⟨hpart, hparts⟩ := List.forall_mem_cons.mp hparts
    rcases eq_or_ne parts [] with rfl | hne
    · rw [List.intercalate_singleton]
      exact fun c hc => .inr (hpart c hc)
    · rw [List.intercalate_cons_of_ne_nil hne]
      intro c hc
      rcases List.mem_append.mp hc with hc | hc
      · rcases List.mem_append.mp hc with hc | hc
        · exact .inr (hpart c hc)
        · exact .inl (List.mem_singleton.mp hc)
      · exact ih hparts c hc

end Lists

/-! ## Texts of shapes -/

/-- A text is read as a shape, unless a number in it has too many digits. -/
def Reads (text : String) (s : Shape) : Prop :=
  read text = if Legible s then .ok (s.map Int.ofNat)
    else .error (.shapeNumeral (String.ofList (Text.quote text.toList)))

theorem not_of_isBracket {c : Char} (h : isBracket c = true) :
    c ≠ ',' ∧ c.isDigit = false ∧ isBlank c = false := by
  have hbracket : c = '(' ∨ c = ')' ∨ c = '[' ∨ c = ']' := by
    simpa [isBracket, or_assoc] using h
  rcases hbracket with rfl | rfl | rfl | rfl <;> decide

/-- A list of parts between brackets is read, with blanks around it. -/
theorem reads_of_lists {s : Shape} {parts : List (List Char)} (h : Lists s parts) {text : String}
    {before after : List Char} (hbefore : before.all isBlank) (hafter : after.all isBlank)
    {opening closing : Char} (hopening : isBracket opening) (hclosing : isBracket closing)
    (htext : text.toList = before ++ (opening :: [','].intercalate parts ++ [closing]) ++ after) :
    Reads text s := by
  have hblanks : Text.Trimmed isBlank (opening :: [','].intercalate parts ++ [closing]) := by
    refine ⟨fun c hc => ?_, fun c hc => ?_⟩
    · obtain rfl : opening = c := Option.some.inj hc
      exact (not_of_isBracket hopening).2.2
    · rw [List.getLast?_append, List.getLast?_singleton, Option.some_or] at hc
      obtain rfl : closing = c := Option.some.inj hc
      exact (not_of_isBracket hclosing).2.2
  have hbrackets : Text.Trimmed isBracket ([','].intercalate parts) :=
    Text.trimmed_of_forall fun c hc => Bool.eq_false_iff.mpr fun hbracket => by
      obtain ⟨hcomma, hdigit, hblank⟩ := not_of_isBracket hbracket
      rcases h.mem_intercalate c hc with hc | hc | hc <;> simp_all
  have houter : Text.trim text.toList = opening :: [','].intercalate parts ++ [closing] := by
    rw [htext, Text.trim,
      Text.trimWhile_append (List.all_eq_true.mp hbefore) (List.all_eq_true.mp hafter) hblanks]
  have hinner : Text.trimWhile isBracket (opening :: [','].intercalate parts ++ [closing]) =
      [','].intercalate parts :=
    have hall : ∀ {b : Char}, isBracket b → ∀ c ∈ [b], isBracket c := fun hb c hc =>
      List.mem_singleton.mp hc ▸ hb
    Text.trimWhile_append (hall hopening) (hall hclosing) hbrackets
  rw [Reads, read, houter, hinner, h.numbers?_intercalate]
  split_ifs <;> rfl

/-- The two forms in which the texts of extents are put together. -/
inductive Form where
  | brackets
  | tuple

namespace Form

def text : Form → List String → String
  | brackets, parts => "[" ++ ",".intercalate parts ++ "]"
  | tuple, parts => tupleText parts

end Form

theorem Lists.of_forall₂ {s : Shape} {parts : List (List Char)} (h : List.Forall₂ Padded s parts) :
    Lists s parts := by
  induction h with
  | nil => exact .nil
  | cons hpart _ ih => exact .number hpart ih

/-- The blank behind a comma can be counted to the next part. -/
theorem intercalate_comma_blank (part : List Char) (parts : List (List Char)) :
    [',', ' '].intercalate (part :: parts) =
      [','].intercalate (part :: parts.map (' ' :: ·)) := by
  induction parts generalizing part with
  | nil => simp only [List.map_nil, List.intercalate_singleton]
  | cons next parts ih =>
    rw [List.map_cons, List.intercalate_cons_cons, List.intercalate_cons_cons,
      List.intercalate_cons_cons_left, ih, List.append_assoc, List.append_assoc]
    rfl

/-- Each form has brackets around a list of the extents. -/
theorem Form.exists_lists (form : Form) {s : Shape} {parts : List String}
    (h : List.Forall₂ Padded s (parts.map String.toList)) :
    ∃ opening closing list, isBracket opening ∧ isBracket closing ∧ Lists s list ∧
      (form.text parts).toList = opening :: [','].intercalate list ++ [closing] := by
  cases form with
  | brackets =>
    refine ⟨'[', ']', parts.map String.toList, rfl, rfl, .of_forall₂ h, ?_⟩
    rw [text, String.toList_append, String.toList_append, String.toList_intercalate]
    rfl
  | tuple =>
    match parts, h with
    | [], h =>
      cases h
      exact ⟨'(', ')', [], rfl, rfl, .nil, rfl⟩
    | [part], .cons hpart .nil =>
      refine ⟨'(', ')', [part.toList, []], rfl, rfl, .number hpart (.blank rfl .nil), ?_⟩
      rw [text, tupleText, String.toList_append, String.toList_append, List.intercalate_cons_cons,
        List.intercalate_singleton]
      simp
    | first :: second :: rest, .cons hfirst hrest =>
      have hblanks := List.forall₂_map_right_iff.mpr (hrest.imp fun _ _ => Padded.cons_blank)
      have htext : Form.tuple.text (first :: second :: rest) =
          "(" ++ ", ".intercalate (first :: second :: rest) ++ ")" := rfl
      refine ⟨'(', ')', _, rfl, rfl, .number hfirst (.of_forall₂ hblanks), ?_⟩
      rw [← intercalate_comma_blank, htext, String.toList_append, String.toList_append,
        String.toList_intercalate]
      rfl

/-- A shape is read from either form, with blanks around the text and around each extent. -/
theorem reads_form (form : Form) {s : Shape} {parts : List String}
    (hparts : List.Forall₂ Padded s (parts.map String.toList)) {before after : String}
    (hbefore : before.toList.all isBlank) (hafter : after.toList.all isBlank) :
    Reads (before ++ form.text parts ++ after) s := by
  obtain ⟨opening, closing, list, hopening, hclosing, hlist, htext⟩ := form.exists_lists hparts
  refine reads_of_lists hlist hbefore hafter hopening hclosing ?_
  rw [String.toList_append, String.toList_append, htext]

theorem padded_toString (s : Shape) :
    List.Forall₂ Padded s ((s.map toString).map String.toList) := by
  rw [List.forall₂_map_right_iff, List.forall₂_map_right_iff, List.forall₂_same]
  exact fun n _ => .unpadded n

theorem reads_toString (form : Form) (s : Shape) : Reads (form.text (s.map toString)) s := by
  have hempty : "".toList.all isBlank := rfl
  have h := reads_form form (padded_toString s) hempty hempty
  rwa [String.empty_append, String.append_empty] at h

theorem reads_text (s : Shape) : Reads s.text s := reads_toString .brackets s

/-- A shape is read back from its extents in square brackets and from them as a tuple, and from
either with blanks around the text and around each extent, unless an extent has too many digits. -/
theorem reads_printed (s : Shape) :
    Reads s.text s ∧ Reads (tupleText (s.map toString)) s ∧
      ∀ (form : Form) (parts : List String) (before after : String),
        List.Forall₂ Padded s (parts.map String.toList) → before.toList.all isBlank →
          after.toList.all isBlank → Reads (before ++ form.text parts ++ after) s :=
  ⟨reads_text s, reads_toString .tuple s,
    fun form _ _ _ hparts hbefore hafter => reads_form form hparts hbefore hafter⟩

end ShapeText

namespace Sample

open ShapeText

theorem reads_printed_padded :
    List.Forall₂ Padded [2, 30] (["\t2 ", " 30"].map String.toList) ∧ Legible [2, 30] ∧
      ShapeText.read "\n(\t2 ,  30) " = .ok [2, 30] := by
  have hparts : List.Forall₂ Padded [2, 30] (["\t2 ", " 30"].map String.toList) :=
    .cons ⟨['\t'], [' '], rfl, rfl, rfl⟩ (.cons ⟨[' '], [], rfl, rfl, rfl⟩ .nil)
  have h := (reads_printed [2, 30]).2.2 .tuple ["\t2 ", " 30"] "\n" " " hparts rfl rfl
  exact ⟨hparts, by decide, h.trans (if_pos (by decide))⟩

/-- An information separator is a blank, but not one that may stand before a numeral. -/
def separated : String := Form.brackets.text ["\x1c" ++ toString 5]

/-- A number with one digit too many. -/
def long : Shape := [Number.tenTo Text.maxDigits]

theorem length_tenTo {k : ℕ} (hk : 0 < k) : k < (toString (Number.tenTo k)).length := by
  rw [← not_le, Nat.toString_eq_repr, Nat.length_repr_le_iff hk]
  exact lt_irrefl _

theorem not_legible_long : ¬ Legible long := fun h =>
  (length_tenTo (by decide)).not_ge (h _ List.mem_cons_self)

/-- Neither of the two is read back. -/
theorem refuses_printed :
    ("\x1c".toList.all Text.isBlank ∧
      ShapeText.read separated = .error (.shapeNumeral "'[\\x1c5]'")) ∧
    ShapeText.read long.text =
      .error (.shapeNumeral (String.ofList (Text.quote long.text.toList))) := by
  have hlong := reads_text long
  rw [Reads, if_neg not_legible_long] at hlong
  exact ⟨⟨rfl, by decide +kernel⟩, hlong⟩

end Sample
end Hyperslab
