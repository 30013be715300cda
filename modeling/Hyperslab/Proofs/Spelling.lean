import Hyperslab.Index.Text
import Mathlib.Data.Nat.Digits.Defs
import Mathlib.Data.List.Chain
import Mathlib.Data.List.TakeWhile

/-!
# How the tokens of an index are written

The spelling of a token is given here with no reference to the scanner: which characters write it,
and which blanks may stand beside it.  The scanner takes as many digits as it can, so it finds the
tokens that were meant only where no number stands right after another number.
-/
namespace Hyperslab
namespace Index

/-- The characters that may stand between tokens. -/
def blanks : List Char := [' ', '\t', '\x0c', '\r', '\n']

theorem isSpace_iff (c : Char) : isSpace c = true ↔ c ∈ blanks := by
  have hfeed : Char.ofNat 12 = '\x0c' := rfl
  simp only [isSpace, blanks, hfeed, Bool.or_eq_true, beq_iff_eq, List.mem_cons,
    List.not_mem_nil, or_false]
  grind

/-! ## Decimal numbers -/

/-- One or more of the ten digits. -/
def Digits (ds : List Char) : Prop := ds ≠ [] ∧ ∀ d ∈ ds, d.isDigit = true

/-- The number that digits write, the last of them counting once. -/
def decimal (ds : List Char) : Nat :=
  Nat.ofDigits 10 (ds.reverse.map fun d => d.toNat - '0'.toNat)

theorem digitsValue_eq (ds : List Char) : digitsValue ds = decimal ds := by
  induction ds using List.reverseRecOn with
  | nil => rfl
  | append_singleton ds d ih =>
    rw [digitsValue, List.foldl_append, decimal, List.reverse_append, List.reverse_singleton,
      List.singleton_append, List.map_cons, Nat.ofDigits_cons]
    change 10 * digitsValue ds + (d.toNat - 48) = _
    rw [ih, decimal, Nat.add_comm]
    rfl

/-- Some run of digits is longer than a numeral may be. -/
def LongNumeral (cs : List Char) : Prop :=
  ∃ ds, ds <:+: cs ∧ (∀ d ∈ ds, d.isDigit = true) ∧ Text.maxDigits < ds.length

theorem length_le_takeWhile {ds cs : List Char} (hp : ds <+: cs) (hd : ∀ d ∈ ds, d.isDigit = true) :
    ds.length ≤ (cs.takeWhile isDigit).length := by
  obtain ⟨rest, rfl⟩ := hp
  rw [List.takeWhile_append_of_pos (by exact hd), List.length_append]
  omega

theorem longNumeral_of_takeWhile {cs : List Char}
    (h : Text.maxDigits < (cs.takeWhile isDigit).length) : LongNumeral cs := by
  refine ⟨cs.takeWhile isDigit, (List.takeWhile_prefix isDigit).isInfix, ?_, h⟩
  intro d hd
  exact List.mem_takeWhile_imp hd

theorem longNumeral_cons (c : Char) (rest : List Char) : LongNumeral (c :: rest) ↔
    Text.maxDigits < ((c :: rest).takeWhile isDigit).length ∨ LongNumeral rest := by
  constructor
  · rintro ⟨ds, hi, hd, hl⟩
    rcases List.infix_cons_iff.mp hi with hp | hi
    · exact .inl (Nat.lt_of_lt_of_le hl (length_le_takeWhile hp hd))
    · exact .inr ⟨ds, hi, hd, hl⟩
  · rintro (hl | ⟨ds, hi, hd, hl⟩)
    · exact longNumeral_of_takeWhile hl
    · exact ⟨ds, List.infix_cons_iff.mpr (.inr hi), hd, hl⟩

/-- The digits that stand before the text count only for the run it starts with. -/
theorem hasLongNumeral_after (count : Nat) (cs : List Char) : hasLongNumeral count cs = true ↔
    Text.maxDigits < count + (cs.takeWhile isDigit).length ∨ LongNumeral cs := by
  induction cs generalizing count with
  | nil =>
    have hnil : ¬LongNumeral [] := by
      rintro ⟨ds, hi, -, hl⟩
      rw [List.infix_nil.mp hi] at hl
      exact Nat.not_lt_zero _ hl
    simp [hasLongNumeral, hnil]
  | cons c rest ih =>
    rw [longNumeral_cons, hasLongNumeral]
    cases hc : isDigit c with
    | true =>
      rw [if_pos rfl, ih, List.takeWhile_cons_of_pos hc, List.length_cons]
      constructor
      · rintro (hl | hl)
        · exact .inl (by omega)
        · exact .inr (.inr hl)
      · rintro (hl | hl | hl)
        · exact .inl (by omega)
        · exact .inl (by omega)
        · exact .inr hl
    | false =>
      have hnone : ((c :: rest).takeWhile isDigit).length = 0 := by
        rw [List.takeWhile_cons_of_neg (by simp [hc]), List.length_nil]
      rw [if_neg Bool.false_ne_true, Bool.or_eq_true, decide_eq_true_eq, ih, hnone]
      constructor
      · rintro (hl | hl | hl)
        · exact .inl hl
        · exact .inr (.inr (longNumeral_of_takeWhile (by omega)))
        · exact .inr (.inr hl)
      · rintro (hl | hl | hl)
        · exact .inl hl
        · exact absurd hl (Nat.not_lt_zero _)
        · exact .inr (.inr hl)

theorem hasLongNumeral_iff (cs : List Char) :
    hasLongNumeral 0 cs = true ↔ LongNumeral cs := by
  rw [hasLongNumeral_after, Nat.zero_add]
  constructor
  · rintro (h | h)
    · exact longNumeral_of_takeWhile h
    · exact h
  · exact .inr

/-! ## Spellings -/

inductive Spelling : Token → List Char → Prop
  | dots : Spelling .dots ['.', '.', '.']
  | newAxis : Spelling .newAxis ['n', 'e', 'w', 'a', 'x', 'i', 's']
  | none : Spelling .newAxis ['N', 'o', 'n', 'e']
  | unsigned {ds} (hd : Digits ds) : Spelling (.whole (decimal ds)) ds
  | plus {ds} (hd : Digits ds) : Spelling (.whole (decimal ds)) ('+' :: ds)
  | minus {ds} (hd : Digits ds) : Spelling (.whole (-(decimal ds : Int))) ('-' :: ds)
  | colon : Spelling .colon [':']
  | comma : Spelling .comma [',']
  | openBracket : Spelling .openBracket ['[']
  | closeBracket : Spelling .closeBracket [']']

/-- The tokens `ts` are written by `cs`, with any blanks before, between and after them. -/
inductive Written : List Char → List Token → Prop
  | nil {bs} (hb : ∀ c ∈ bs, c ∈ blanks) : Written bs []
  | cons {bs s rest t ts} (hb : ∀ c ∈ bs, c ∈ blanks) (hs : Spelling t s)
      (hr : Written rest ts) : Written (bs ++ (s ++ rest)) (t :: ts)

def Token.isWhole : Token → Bool
  | .whole _ => true
  | _ => false

/-- No number stands right after another number. -/
def Apart (ts : List Token) : Prop := ts.IsChain fun a b => ¬(a.isWhole = true ∧ b.isWhole = true)

theorem apart_singleton (t : Token) : Apart [t] := List.isChain_singleton t

theorem Apart.join {as bs : List Token} {t : Token} (ha : Apart as) (ht : t.isWhole = false)
    (hb : Apart bs) : Apart (as ++ t :: bs) := by
  apply List.IsChain.append ha
  · cases bs with
    | nil => exact apart_singleton t
    | cons b bs => exact List.IsChain.cons_cons (by simp [ht]) hb
  · intro a _ b hm
    simp only [List.head?_cons, Option.mem_def, Option.some.injEq] at hm
    simp [← hm, ht]

/-! ## One token -/

theorem Spelling.nonempty {t : Token} {s : List Char} (h : Spelling t s) :
    ∃ c rest, s = c :: rest ∧ c ∉ blanks := by
  cases h with
  | unsigned hd =>
    obtain ⟨hne, hd⟩ := hd
    obtain ⟨d, ds, rfl⟩ := List.exists_cons_of_ne_nil hne
    refine ⟨d, ds, rfl, ?_⟩
    intro hm
    have := hd d List.mem_cons_self
    simp only [blanks, List.mem_cons, List.not_mem_nil, or_false] at hm
    rcases hm with rfl | rfl | rfl | rfl | rfl <;> contradiction
  | _ => exact ⟨_, _, rfl, by decide⟩

theorem takeWhile_digits {ds rest : List Char} (hd : Digits ds)
    (hr : ∀ c ∈ rest.head?, c.isDigit = false) :
    (ds ++ rest).takeWhile isDigit = ds ∧ (ds ++ rest).dropWhile isDigit = rest := by
  have hr : rest.takeWhile isDigit = [] ∧ rest.dropWhile isDigit = rest := by
    cases rest with
    | nil => exact ⟨rfl, rfl⟩
    | cons c rest =>
      have hc : isDigit c = false := hr c rfl
      simp [hc]
  have hd : ∀ d ∈ ds, isDigit d = true := hd.2
  rw [List.takeWhile_append_of_pos hd, List.dropWhile_append_of_pos hd, hr.1, hr.2,
    List.append_nil]
  exact ⟨rfl, rfl⟩

theorem scanWhole_digits {sign : Int} {ds rest : List Char} (hd : Digits ds)
    (hr : ∀ c ∈ rest.head?, c.isDigit = false) :
    Token.scanWhole sign (ds ++ rest) = some (.whole (sign * decimal ds), rest) := by
  obtain ⟨ht, hdrop⟩ := takeWhile_digits hd hr
  obtain ⟨d, ds', rfl⟩ := List.exists_cons_of_ne_nil hd.1
  rw [Token.scanWhole, ht, hdrop, ← digitsValue_eq]

theorem scanWhole_sound {sign : Int} {cs rest : List Char} {t : Token}
    (h : Token.scanWhole sign cs = some (t, rest)) :
    ∃ ds, cs = ds ++ rest ∧ Digits ds ∧ t = .whole (sign * decimal ds) := by
  rw [Token.scanWhole] at h
  split at h
  · cases h
  · next ds hne =>
    cases h
    refine ⟨cs.takeWhile isDigit, List.takeWhile_append_dropWhile.symm, ⟨hne, ?_⟩, ?_⟩
    · intro d hd
      exact List.mem_takeWhile_imp hd
    · rw [digitsValue_eq]

/-- A number without a sign is told from every other token by its first character. -/
theorem scan_unsigned {ds rest : List Char} (hd : Digits ds) :
    Token.scan (ds ++ rest) = Token.scanWhole 1 (ds ++ rest) := by
  obtain ⟨hne, hd⟩ := hd
  obtain ⟨d, ds, rfl⟩ := List.exists_cons_of_ne_nil hne
  have hdigit := hd d List.mem_cons_self
  rw [List.cons_append]
  generalize hcs : d :: (ds ++ rest) = cs
  unfold Token.scan
  -- Every clause but the last one asks for a first character that is no digit.
  split <;> first
    | rfl
    | (obtain ⟨rfl, -⟩ := List.cons.inj hcs; contradiction)

theorem scan_complete {t : Token} {s rest : List Char} (hs : Spelling t s)
    (hr : t.isWhole = true → ∀ c ∈ rest.head?, c.isDigit = false) :
    Token.scan (s ++ rest) = some (t, rest) := by
  cases hs with
  | unsigned hd => rw [scan_unsigned hd, scanWhole_digits hd (hr rfl), Int.one_mul]
  | plus hd =>
    change Token.scanWhole 1 (_ ++ rest) = _
    rw [scanWhole_digits hd (hr rfl), Int.one_mul]
  | minus hd =>
    change Token.scanWhole (-1) (_ ++ rest) = _
    rw [scanWhole_digits hd (hr rfl), Int.neg_one_mul]
  | _ => rfl

theorem scan_sound {cs rest : List Char} {t : Token} (h : Token.scan cs = some (t, rest)) :
    ∃ s, cs = s ++ rest ∧ Spelling t s := by
  unfold Token.scan at h
  split at h
  · cases h; exact ⟨_, rfl, .dots⟩
  · cases h; exact ⟨_, rfl, .newAxis⟩
  · cases h; exact ⟨_, rfl, .none⟩
  · cases h; exact ⟨_, rfl, .colon⟩
  · cases h; exact ⟨_, rfl, .comma⟩
  · cases h; exact ⟨_, rfl, .openBracket⟩
  · cases h; exact ⟨_, rfl, .closeBracket⟩
  · obtain ⟨ds, rfl, hd, rfl⟩ := scanWhole_sound h
    rw [Int.neg_one_mul]
    exact ⟨_, rfl, .minus hd⟩
  · obtain ⟨ds, rfl, hd, rfl⟩ := scanWhole_sound h
    rw [Int.one_mul]
    exact ⟨_, rfl, .plus hd⟩
  · obtain ⟨ds, rfl, hd, rfl⟩ := scanWhole_sound h
    rw [Int.one_mul]
    exact ⟨_, rfl, .unsigned hd⟩

/-! ## A whole text -/

theorem Written.pad {bs cs : List Char} {ts : List Token} (hb : ∀ c ∈ bs, c ∈ blanks)
    (h : Written cs ts) : Written (bs ++ cs) ts := by
  cases h with
  | nil hb' =>
    apply Written.nil
    simpa only [List.forall_mem_append] using And.intro hb hb'
  | cons hb' hs hr =>
    rw [← List.append_assoc]
    refine Written.cons ?_ hs hr
    simpa only [List.forall_mem_append] using And.intro hb hb'

theorem dropWhile_blanks {bs : List Char} (hb : ∀ c ∈ bs, c ∈ blanks) (cs : List Char) :
    (bs ++ cs).dropWhile isSpace = cs.dropWhile isSpace := by
  rw [List.dropWhile_append_of_pos]
  intro c hc
  exact (isSpace_iff c).mpr (hb c hc)

/-- A text that starts with a digit starts with a number. -/
theorem Written.head_digit {cs : List Char} {ts : List Token} {c : Char} (h : Written cs ts)
    (hc : c ∈ cs.head?) (hd : c.isDigit = true) : ∃ t ∈ ts.head?, t.isWhole = true := by
  have not_blank : c ∉ blanks := by
    intro hm
    simp only [blanks, List.mem_cons, List.not_mem_nil, or_false] at hm
    rcases hm with rfl | rfl | rfl | rfl | rfl <;> contradiction
  cases h with
  | nil hb => exact absurd (hb c (List.mem_of_mem_head? hc)) not_blank
  | @cons bs s rest t ts hb hs hr =>
    refine ⟨t, rfl, ?_⟩
    cases bs with
    | cons b bs =>
      obtain rfl : b = c := by simpa using hc
      exact absurd (hb b List.mem_cons_self) not_blank
    | nil =>
      cases hs with
      | unsigned | plus | minus => rfl
      | _ =>
        obtain rfl := Option.some.inj hc
        exact absurd hd (by decide)

theorem head_spelling {t : Token} {s rest : List Char} (hs : Spelling t s)
    (hr : t.isWhole = true → ∀ c ∈ rest.head?, c.isDigit = false) :
    head (s ++ rest) = .token t rest := by
  obtain ⟨c, s', rfl, -⟩ := hs.nonempty
  rw [List.cons_append, head, ← List.cons_append, scan_complete hs hr]
  · intro h
    cases h

theorem cutFrom_complete {cs : List Char} {ts : List Token} (h : Written cs ts) (ha : Apart ts)
    (total : Nat) :
    (cutFrom total cs).tokens.map Prod.fst = ts ∧ (cutFrom total cs).stuckAt = none := by
  induction h with
  | @nil bs hb =>
    have hdrop : bs.dropWhile isSpace = [] := by
      simpa using dropWhile_blanks hb []
    unfold cutFrom
    rw [hdrop]
    exact ⟨rfl, rfl⟩
  | @cons bs s rest t ts hb hs hr ih =>
    have hdrop : (bs ++ (s ++ rest)).dropWhile isSpace = s ++ rest := by
      rw [dropWhile_blanks hb]
      obtain ⟨c, s', rfl, hc⟩ := hs.nonempty
      rw [← isSpace_iff, Bool.not_eq_true] at hc
      rw [List.cons_append, List.dropWhile_cons, hc]
      rfl
    -- were the next character a digit, the token after a number would be a number too
    have hend : t.isWhole = true → ∀ c ∈ rest.head?, c.isDigit = false := by
      intro ht c hc
      by_contra hd
      obtain ⟨t', ht', hw⟩ := hr.head_digit hc (by simpa using hd)
      obtain ⟨ts', rfl⟩ := List.head?_eq_some_iff.mp ht'
      exact (List.isChain_cons_cons.mp ha).1 ⟨ht, hw⟩
    have hhead := head_spelling hs hend
    unfold cutFrom
    rw [hdrop]
    split
    next hh => rw [hhead] at hh; cases hh
    next hh => rw [hhead] at hh; cases hh
    next t' rest' hh =>
      rw [hhead] at hh
      cases hh
      obtain ⟨htokens, hstuck⟩ := ih ha.tail
      exact ⟨congrArg (t :: ·) htokens, hstuck⟩

theorem head_token {cs rest : List Char} {t : Token} (h : head cs = .token t rest) :
    ∃ s, cs = s ++ rest ∧ Spelling t s := by
  unfold head at h
  split at h
  · cases h
  · split at h
    · next hs => cases h; exact scan_sound hs
    · cases h

theorem head_finished {cs : List Char} (h : head cs = .finished) : cs = [] := by
  unfold head at h
  split at h
  · rfl
  · split at h <;> cases h

theorem cutFrom_sound {total : Nat} {cs : List Char} (h : (cutFrom total cs).stuckAt = none) :
    Written cs ((cutFrom total cs).tokens.map Prod.fst) := by
  have hblank : ∀ cs : List Char, ∀ c ∈ cs.takeWhile isSpace, c ∈ blanks := by
    intro cs c hc
    exact (isSpace_iff c).mp (List.mem_takeWhile_imp hc)
  fun_induction cutFrom total cs with
  | case1 cs hh =>
    apply Written.nil
    rw [← List.takeWhile_append_dropWhile (p := isSpace) (l := cs), head_finished hh,
      List.append_nil]
    exact hblank cs
  | case2 => cases h
  | case3 cs offset t rest hh later ih =>
    obtain ⟨s, hs, hspell⟩ := head_token hh
    rw [← List.takeWhile_append_dropWhile (p := isSpace) (l := cs), hs]
    exact Written.cons (hblank cs) hspell (ih h)

end Index
end Hyperslab
