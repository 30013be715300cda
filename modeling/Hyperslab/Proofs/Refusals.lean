import Hyperslab.Proofs.Grammar

/-!
# Where a textual index is refused

Reading stops at the first place where no token of the grammar can go on: the tokens
before it begin some index, and with a token that stands there they begin none.  The
place is given with no reference to the reader, by the spelling of the tokens and the
rules of the grammar alone.
-/

namespace Hyperslab
namespace Index

/-! ## Tokens that begin an index -/

/-- Some index starts with the tokens. -/
def Viable (ts : List Token) : Prop := ∃ us key, IsIndex (ts ++ us) key

theorem Viable.of_append {ts us : List Token} (h : Viable (ts ++ us)) : Viable ts := by
  obtain ⟨vs, key, h⟩ := h
  rw [List.append_assoc] at h
  exact ⟨us ++ vs, key, h⟩

theorem Viable.of_index {ts : List Token} {key : List Item} (h : IsIndex ts key) : Viable ts :=
  ⟨[], key, (List.append_nil ts).symm ▸ h⟩

/-- Tokens are cut in one way into some that begin an index and a token that stops them. -/
theorem Viable.split_unique {ps qs rest rest' : List Placed} (h : ps ++ rest = qs ++ rest')
    (hp : Viable (kinds ps)) (hrest : ∀ p ∈ rest.head?, ¬Viable (kinds ps ++ [p.1]))
    (hq : Viable (kinds qs)) (hrest' : ∀ p ∈ rest'.head?, ¬Viable (kinds qs ++ [p.1])) :
    ps = qs ∧ rest = rest' := by
  have hlonger : ∀ {ps more rest : List Placed}, Viable (kinds (ps ++ more)) →
      (∀ p ∈ (more ++ rest).head?, ¬Viable (kinds ps ++ [p.1])) → more = [] := by
    intro ps more rest hv hn
    cases more with
    | nil => rfl
    | cons p more =>
      refine absurd ?_ (hn p rfl)
      rw [List.append_cons, kinds_append] at hv
      have hv := hv.of_append
      rwa [kinds_append] at hv
  rcases List.append_eq_append_iff.mp h with ⟨more, rfl, rfl⟩ | ⟨more, rfl, rfl⟩
  · obtain rfl := hlonger hq hrest
    exact ⟨(List.append_nil ps).symm, rfl⟩
  · obtain rfl := hlonger hp hrest'
    exact ⟨List.append_nil qs, rfl⟩

/-! ## What is left over depends on its first token only -/

theorem step_local {start stop : Option Int} {ts rest : List Placed} {p : Placed} {i : Item}
    (h : step start stop ts = (i, p :: rest)) :
    ∃ used, ts = used ++ p :: rest ∧
      ∀ rest', step start stop (used ++ p :: rest') = (i, p :: rest') := by
  unfold step at h
  split at h
  · next n o o' later =>
    cases h
    exact ⟨[_, _], rfl, fun _ => rfl⟩
  · next o later hno =>
    cases h
    refine ⟨[_], rfl, fun rest' => ?_⟩
    obtain ⟨t, o'⟩ := p
    cases t with
    | whole n => exact absurd rfl (hno n o' rest)
    | _ => rfl
  · next hno hno' =>
    cases h
    refine ⟨[], rfl, fun rest' => ?_⟩
    obtain ⟨t, o'⟩ := p
    cases t with
    | colon => exact absurd rfl (hno' o' rest)
    | _ => rfl

theorem spanFrom_local {start : Option Int} {ts rest : List Placed} {p : Placed} {i : Item}
    (h : spanFrom start ts = (i, p :: rest)) :
    ∃ used, ts = used ++ p :: rest ∧
      ∀ rest', spanFrom start (used ++ p :: rest') = (i, p :: rest') := by
  unfold spanFrom at h
  split at h
  · next n o later =>
    obtain ⟨used, rfl, hused⟩ := step_local h
    exact ⟨(.whole n, o) :: used, rfl, hused⟩
  · next hno =>
    obtain ⟨used, rfl, hused⟩ := step_local h
    refine ⟨used, rfl, fun rest' => ?_⟩
    rw [← hused rest', spanFrom]
    intro n o later hl
    cases used with
    | nil =>
      obtain ⟨rfl, -⟩ := List.cons.inj hl
      exact hno n o rest rfl
    | cons q used =>
      obtain ⟨rfl, -⟩ := List.cons.inj hl
      exact hno n o (used ++ p :: rest) rfl

theorem item_local {ts rest : List Placed} {p : Placed} {i : Item}
    (h : item? ts = some (i, p :: rest)) :
    ∃ used, ts = used ++ p :: rest ∧
      ∀ rest', item? (used ++ p :: rest') = some (i, p :: rest') := by
  unfold item? at h
  split at h
  · cases h
    exact ⟨[_], rfl, fun _ => rfl⟩
  · cases h
    exact ⟨[_], rfl, fun _ => rfl⟩
  · next n o o' later =>
    obtain ⟨used, rfl, hused⟩ := spanFrom_local (Option.some.inj h)
    exact ⟨(.whole n, o) :: (.colon, o') :: used, rfl, fun rest' => congrArg some (hused rest')⟩
  · next n o later hno =>
    cases h
    refine ⟨[_], rfl, fun rest' => ?_⟩
    obtain ⟨t, o'⟩ := p
    cases t with
    | colon => exact absurd rfl (hno o' rest)
    | _ => rfl
  · next o later =>
    obtain ⟨used, rfl, hused⟩ := spanFrom_local (Option.some.inj h)
    exact ⟨(.colon, o) :: used, rfl, fun rest' => congrArg some (hused rest')⟩
  · cases h

theorem item_none_local {rest rest' : List Placed} {p : Placed} (h : item? (p :: rest) = none) :
    item? (p :: rest') = none := by
  obtain ⟨t, o⟩ := p
  cases t with
  | dots | newAxis | colon => cases h
  | whole n =>
    obtain _ | ⟨⟨t, o'⟩, rest⟩ := rest
    · cases h
    · cases t <;> cases h
  | comma | openBracket | closeBracket => rfl

theorem items_local {ts rest : List Placed} {p : Placed} (h : (items ts).2 = p :: rest) :
    ∃ used, ts = used ++ p :: rest ∧
      ∀ rest', items (used ++ p :: rest') = ((items ts).1, p :: rest') := by
  fun_induction items ts with
  | case1 ts hitem =>
    obtain rfl : ts = p :: rest := h
    exact ⟨[], rfl, fun rest' => items_of_none (item_none_local hitem)⟩
  | case2 ts i o later hitem found ih =>
    obtain ⟨used, rfl, hused⟩ := item_local hitem
    obtain ⟨more, rfl, hmore⟩ := ih h
    refine ⟨used ++ (.comma, o) :: more, by simp, fun rest' => ?_⟩
    rw [List.append_assoc, List.cons_append, items_of_comma (hused _), hmore]
  | case3 ts i later hno hitem =>
    obtain rfl : later = p :: rest := h
    obtain ⟨used, rfl, hused⟩ := item_local hitem
    refine ⟨used, rfl, fun rest' => items_of_last (hused rest') ?_⟩
    rintro o later' hcons
    obtain ⟨rfl, -⟩ := List.cons.inj hcons
    exact hno o rest rfl

/-- No list goes on with a token that the items leave over. -/
theorem items_left {ts rest : List Placed} {p : Placed} (h : (items ts).2 = p :: rest) :
    ∃ used, ts = used ++ p :: rest ∧ IsList (kinds used) (items ts).1 ∧
      ∀ us key, ¬IsList (kinds used ++ p.1 :: us) key := by
  obtain ⟨used, hts, hused⟩ := items_local h
  refine ⟨used, hts, ?_, fun us key hlist => ?_⟩
  · obtain ⟨qs, hqs, hlist⟩ := items_sound ts
    rw [h, hts, kinds_append, List.append_cancel_right_eq] at hqs
    rwa [hqs]
  · have hplaced : kinds (used ++ p :: us.map (·, 0)) = kinds used ++ p.1 :: us := by
      simp [kinds, Function.comp_def]
    rw [← hplaced] at hlist
    have hread := items_list hlist .nil
    rw [List.append_nil, hused] at hread
    cases hread

/-! ## Where reading stops -/

theorem finish_eq_error {c : Cut} {found : List Item} {rest : List Placed} {r : Refusal}
    (h : c.finish found rest = .error r) : r = c.refusal rest := by
  rw [Cut.finish] at h
  split_ifs at h
  exact (Except.error.inj h).symm

/-- A closing bracket ends an index that an opening one has started. -/
theorem IsIndex.of_bracket {ts us : List Token} {t : Token} {key : List Item}
    (h : IsIndex (.openBracket :: (ts ++ t :: us)) key) :
    us = [] ∧ t = .closeBracket ∧ IsList ts key ∨ ∃ vs, IsList (ts ++ t :: vs) key := by
  generalize hw : Token.openBracket :: (ts ++ t :: us) = ws at h
  cases h with
  | bare h =>
    subst hw
    exact absurd h IsList.not_bracket
  | @bracketed ws _ h =>
    obtain ⟨_, hw⟩ := List.cons.inj hw
    rcases List.eq_nil_or_concat us with rfl | ⟨vs, v, rfl⟩
    · obtain ⟨rfl, hlast⟩ := List.append_inj' hw rfl
      exact .inl ⟨rfl, (List.cons.inj hlast).1, h⟩
    · rw [List.concat_eq_append, ← List.cons_append, ← List.append_assoc] at hw
      obtain ⟨rfl, _⟩ := List.append_inj' hw rfl
      exact .inr ⟨vs, h⟩

/-- All tokens that are read as a list, when none is left over. -/
theorem items_all {ts : List Placed} (h : (items ts).2 = []) : IsList (kinds ts) (items ts).1 := by
  obtain ⟨used, hused, hlist⟩ := items_sound ts
  rw [h, kinds_nil, List.append_nil] at hused
  exact hused ▸ hlist

/-- What stops a list in brackets that are not closed after it. -/
theorem stops_in_brackets {inner rest : List Placed} {o : Nat}
    (h : (items inner).2 = rest) (hno : ∀ o' later, rest ≠ (.closeBracket, o') :: later) :
    ∃ ps, (.openBracket, o) :: inner = ps ++ rest ∧ Viable (kinds ps) ∧
      ∀ p ∈ rest.head?, ¬Viable (kinds ps ++ [p.1]) := by
  cases rest with
  | nil =>
    exact ⟨_, (List.append_nil _).symm, ⟨[.closeBracket], _, .bracketed (items_all h)⟩, nofun⟩
  | cons p rest =>
    obtain ⟨used, rfl, hlist, hnone⟩ := items_left h
    refine ⟨(.openBracket, o) :: used, rfl, ⟨[.closeBracket], _, .bracketed hlist⟩, ?_⟩
    rintro q hq ⟨us, key, hindex⟩
    obtain rfl : p = q := Option.some.inj hq
    rw [kinds_cons, List.cons_append, List.cons_append, List.append_assoc] at hindex
    rcases hindex.of_bracket with ⟨-, hp, -⟩ | ⟨vs, hvs⟩
    · exact hno p.2 rest (hp ▸ rfl)
    · exact hnone vs key hvs

/-- What stops after the closing bracket, where nothing may follow. -/
theorem stops_after_brackets {inner rest : List Placed} {o o' : Nat}
    (h : (items inner).2 = (.closeBracket, o') :: rest) :
    ∃ ps, (.openBracket, o) :: inner = ps ++ rest ∧ Viable (kinds ps) ∧
      ∀ p ∈ rest.head?, ¬Viable (kinds ps ++ [p.1]) := by
  obtain ⟨used, rfl, hlist, hnone⟩ := items_left h
  refine ⟨(.openBracket, o) :: (used ++ [(.closeBracket, o')]), by simp, ?_, ?_⟩
  · rw [kinds_cons, kinds_append]
    exact .of_index (.bracketed hlist)
  · rintro p - ⟨us, key, hindex⟩
    rw [kinds_cons, kinds_append, List.append_assoc, List.cons_append, List.append_assoc] at hindex
    rcases hindex.of_bracket with ⟨hnil, -⟩ | ⟨vs, hvs⟩
    · cases hnil
    · exact hnone vs key hvs

/-- What stops a list that stands in no brackets. -/
theorem stops_bare {ts : List Placed} (hno : ∀ o inner, ts ≠ (.openBracket, o) :: inner) :
    ∃ ps, ts = ps ++ (items ts).2 ∧ Viable (kinds ps) ∧
      ∀ p ∈ (items ts).2.head?, ¬Viable (kinds ps ++ [p.1]) := by
  cases hleft : (items ts).2 with
  | nil => exact ⟨ts, (List.append_nil ts).symm, .of_index (.bare (items_all hleft)), nofun⟩
  | cons p rest =>
    obtain ⟨used, hts, hlist, hnone⟩ := items_left hleft
    refine ⟨used, hts, .of_index (.bare hlist), ?_⟩
    rintro q hq ⟨us, key, hindex⟩
    obtain rfl : p = q := Option.some.inj hq
    rw [List.append_assoc, List.singleton_append] at hindex
    generalize hw : kinds used ++ p.1 :: us = ws at hindex
    cases hindex with
    | bare hbare =>
      subst hw
      exact hnone us key hbare
    | bracketed =>
      cases used with
      | nil =>
        obtain ⟨hp, -⟩ := List.cons.inj hw
        exact hno p.2 rest (hts.trans (hp ▸ rfl))
      | cons q used =>
        obtain ⟨hq, -⟩ := List.cons.inj hw
        exact hno q.2 (used ++ p :: rest) (hts.trans (hq ▸ rfl))

/-- Reading stops where the tokens so far begin an index and with the next one begin none. -/
theorem Cut.read_error {c : Cut} {r : Refusal} (h : c.read = .error r) :
    ∃ ps rest, c.tokens = ps ++ rest ∧ Viable (kinds ps) ∧
      (∀ p ∈ rest.head?, ¬Viable (kinds ps ++ [p.1])) ∧ r = c.refusal rest := by
  unfold Cut.read at h
  split at h
  · next o inner htokens =>
    split at h
    · next found o' rest hitems =>
      obtain ⟨ps, hps, hviable, hstop⟩ := stops_after_brackets (congrArg Prod.snd hitems)
      exact ⟨ps, rest, htokens.trans hps, hviable, hstop, finish_eq_error h⟩
    · next found rest hno hitems =>
      obtain ⟨ps, hps, hviable, hstop⟩ := stops_in_brackets (congrArg Prod.snd hitems) hno
      exact ⟨ps, rest, htokens.trans hps, hviable, hstop, (Except.error.inj h).symm⟩
  · next hno =>
    obtain ⟨ps, hps, hviable, hstop⟩ := stops_bare hno
    exact ⟨ps, _, hps, hviable, hstop, finish_eq_error h⟩

/-- Reading stops at the one place that is told by the grammar. -/
theorem Cut.read_eq_error {c : Cut} {ps rest : List Placed} (htokens : c.tokens = ps ++ rest)
    (hviable : Viable (kinds ps)) (hstop : ∀ p ∈ rest.head?, ¬Viable (kinds ps ++ [p.1]))
    (hmore : rest ≠ [] ∨ c.stuckAt ≠ none) : c.read = .error (c.refusal rest) := by
  cases hread : c.read with
  | ok key =>
    obtain ⟨hstuck, hindex⟩ := Cut.read_sound hread
    have hrest := hmore.resolve_right (not_not_intro hstuck)
    obtain ⟨p, later, rfl⟩ := List.exists_cons_of_ne_nil hrest
    rw [htokens, List.append_cons, kinds_append, kinds_append] at hindex
    exact absurd (Viable.of_index hindex).of_append (hstop p rfl)
  | error r =>
    obtain ⟨qs, rest', hqs, hviable', hstop', rfl⟩ := Cut.read_error hread
    obtain ⟨-, rfl⟩ :=
      Viable.split_unique (htokens.symm.trans hqs) hviable hstop hviable' hstop'
    rfl

/-! ## Tokens at the head of a text -/

/-- A token stands at the head of a text, a number with all the digits that follow. -/
inductive Leads (t : Token) : List Char → List Char → Prop
  | spelled {s rest} (hs : Spelling t s)
      (hr : t.isWhole = true → ∀ c ∈ rest.head?, c.isDigit = false) : Leads t (s ++ rest) rest

/-- Tokens stand at the head of a text, with any blanks before and between them; what is left of
the text starts with no blank. -/
inductive Begins : List Char → List Token → List Char → Prop
  | nil {bs left} (hb : ∀ c ∈ bs, c ∈ blanks) (hleft : ∀ c ∈ left.head?, c ∉ blanks) :
      Begins (bs ++ left) [] left
  | cons {bs cs rest left t ts} (hb : ∀ c ∈ bs, c ∈ blanks) (ht : Leads t cs rest)
      (hr : Begins rest ts left) : Begins (bs ++ cs) (t :: ts) left

/-- At the character number `n` no token can go on: those before it begin an index, and with one
that stands there they begin none. -/
def Offends (cs : List Char) (n : Nat) : Prop :=
  n < cs.length ∧ ∃ ts, Begins cs ts (cs.drop n) ∧ Viable ts ∧
    ∀ t rest, Leads t (cs.drop n) rest → ¬Viable (ts ++ [t])

theorem scan_munch {cs rest : List Char} {t : Token} (h : Token.scan cs = some (t, rest))
    (ht : t.isWhole = true) : ∀ c ∈ rest.head?, c.isDigit = false := by
  have hwhole : ∀ {sign cs}, Token.scanWhole sign cs = some (t, rest) →
      ∀ c ∈ rest.head?, c.isDigit = false := by
    intro sign cs h c hc
    rw [Token.scanWhole] at h
    split at h
    · cases h
    · cases h
      have hnot := List.head?_dropWhile_not isDigit cs
      rwa [Option.mem_def.mp hc] at hnot
  unfold Token.scan at h
  split at h <;> first
    | exact hwhole h
    | (cases h; cases ht)

theorem head_eq_token {cs rest : List Char} {t : Token} :
    head cs = .token t rest ↔ Leads t cs rest := by
  constructor
  · intro h
    have hscan : Token.scan cs = some (t, rest) := by
      unfold head at h
      split at h
      · cases h
      · split at h
        · next hs => cases h; exact hs
        · cases h
    obtain ⟨s, rfl, hs⟩ := scan_sound hscan
    exact .spelled hs (scan_munch hscan)
  · rintro ⟨hs, hr⟩
    exact head_spelling hs hr

/-! ## Cutting a text at a token -/

theorem dropWhile_eq_self {cs : List Char} (h : ∀ c ∈ cs.head?, c ∉ blanks) :
    cs.dropWhile isSpace = cs := by
  cases cs with
  | nil => rfl
  | cons c cs =>
    have hc : ¬isSpace c = true := fun hs => h c rfl ((isSpace_iff c).mp hs)
    rw [List.dropWhile_cons_of_neg hc]

theorem not_blank_of_dropWhile (cs : List Char) :
    ∀ c ∈ (cs.dropWhile isSpace).head?, c ∉ blanks := by
  intro c hc hblank
  have hnot := List.head?_dropWhile_not isSpace cs
  rw [Option.mem_def.mp hc] at hnot
  exact Bool.false_ne_true (hnot.symm.trans ((isSpace_iff c).mpr hblank))

theorem Leads.not_blank {t : Token} {cs rest : List Char} (h : Leads t cs rest) :
    ∀ c ∈ cs.head?, c ∉ blanks := by
  obtain ⟨hs, -⟩ := h
  obtain ⟨c, s, rfl, hc⟩ := hs.nonempty
  rintro d hd
  obtain rfl : c = d := Option.some.inj hd
  exact hc

theorem Begins.not_blank {cs left : List Char} {ts : List Token} (h : Begins cs ts left) :
    ∀ c ∈ left.head?, c ∉ blanks := by
  induction h with
  | nil _ hleft => exact hleft
  | cons _ _ _ ih => exact ih

theorem Begins.suffix {cs left : List Char} {ts : List Token} (h : Begins cs ts left) :
    left <:+ cs := by
  induction h with
  | nil => exact List.suffix_append _ _
  | cons _ ht _ ih =>
    obtain ⟨-, -⟩ := ht
    exact (ih.trans (List.suffix_append _ _)).trans (List.suffix_append _ _)

variable {total : Nat}

theorem cutFrom_dropWhile (cs : List Char) :
    cutFrom total (cs.dropWhile isSpace) = cutFrom total cs := by
  rw [cutFrom, dropWhile_eq_self (not_blank_of_dropWhile cs)]
  conv_rhs => rw [cutFrom]

theorem cutFrom_blanks {bs : List Char} (hb : ∀ c ∈ bs, c ∈ blanks) (cs : List Char) :
    cutFrom total (bs ++ cs) = cutFrom total cs := by
  rw [← cutFrom_dropWhile, dropWhile_blanks hb, cutFrom_dropWhile]

theorem cutFrom_finished : cutFrom total [] = ⟨[], none⟩ := by
  rw [cutFrom]
  rfl

theorem cutFrom_token {cs rest : List Char} {t : Token} (h : Leads t cs rest) :
    cutFrom total cs =
      ⟨(t, total - cs.length) :: (cutFrom total rest).tokens, (cutFrom total rest).stuckAt⟩ := by
  have hhead := head_eq_token.mpr h
  rw [cutFrom, dropWhile_eq_self h.not_blank]
  split
  · next hh => rw [hhead] at hh; cases hh
  · next hh => rw [hhead] at hh; cases hh
  · next hh => rw [hhead] at hh; cases hh; rfl

theorem cutFrom_stuck {cs : List Char} (hcs : cs ≠ []) (hblank : ∀ c ∈ cs.head?, c ∉ blanks)
    (h : ∀ t rest, ¬Leads t cs rest) : cutFrom total cs = ⟨[], some (total - cs.length)⟩ := by
  rw [cutFrom, dropWhile_eq_self hblank]
  split
  · next hh => exact absurd (head_finished hh) hcs
  · rfl
  · next hh => exact absurd (head_eq_token.mp hh) (h _ _)

/-- Tokens that stand at the head of a text are cut off, and cutting goes on with what is left. -/
theorem Begins.cutFrom (total : Nat) {cs left : List Char} {ts : List Token}
    (h : Begins cs ts left) :
    ∃ ps, kinds ps = ts ∧ (cutFrom total cs).tokens = ps ++ (cutFrom total left).tokens ∧
      (cutFrom total cs).stuckAt = (cutFrom total left).stuckAt := by
  induction h with
  | nil hb _ =>
    rw [cutFrom_blanks hb]
    exact ⟨[], rfl, rfl, rfl⟩
  | @cons bs cs rest left t ts hb ht _ ih =>
    obtain ⟨ps, rfl, htokens, hstuck⟩ := ih
    rw [cutFrom_blanks hb, cutFrom_token ht]
    exact ⟨(t, total - cs.length) :: ps, rfl, congrArg _ htokens, hstuck⟩

/-- Where the tokens of a text are cut in two, the text is. -/
theorem begins_of_split {cs : List Char} {ps rest : List Placed}
    (h : (cutFrom total cs).tokens = ps ++ rest) :
    ∃ left, Begins cs (kinds ps) left ∧ (cutFrom total left).tokens = rest ∧
      (cutFrom total left).stuckAt = (cutFrom total cs).stuckAt := by
  have hblanks : ∀ c ∈ cs.takeWhile isSpace, c ∈ blanks := fun c hc =>
    (isSpace_iff c).mp (List.mem_takeWhile_imp hc)
  have hcs : cs.takeWhile isSpace ++ cs.dropWhile isSpace = cs := List.takeWhile_append_dropWhile
  induction ps generalizing cs with
  | nil =>
    refine ⟨cs.dropWhile isSpace, ?_, ?_, ?_⟩
    · have hbegins := Begins.nil hblanks (not_blank_of_dropWhile cs)
      rwa [hcs] at hbegins
    · rw [cutFrom_dropWhile]
      exact h
    · rw [cutFrom_dropWhile]
  | cons p ps ih =>
    rw [cutFrom] at h
    split at h
    · cases h
    · cases h
    · next t later hhead =>
      obtain ⟨rfl, htokens⟩ := List.cons.inj h
      have hleads := head_eq_token.mp hhead
      obtain ⟨left, hbegins, hrest, hstuck⟩ := ih htokens (fun c hc =>
        (isSpace_iff c).mp (List.mem_takeWhile_imp hc)) List.takeWhile_append_dropWhile
      refine ⟨left, ?_, hrest, ?_⟩
      · have hbegins := Begins.cons hblanks hleads hbegins
        rwa [hcs] at hbegins
      · rw [hstuck, ← cutFrom_dropWhile cs, cutFrom_token hleads]

/-- What is left of a text leads with the first token that is cut off. -/
theorem leads_of_cutFrom {left : List Char} (hblank : ∀ c ∈ left.head?, c ∉ blanks) {p : Placed}
    (hp : p ∈ (cutFrom total left).tokens.head?) :
    p.2 = total - left.length ∧ ∃ rest, Leads p.1 left rest := by
  by_cases hleads : ∃ t rest, Leads t left rest
  · obtain ⟨t, rest, ht⟩ := hleads
    rw [cutFrom_token ht] at hp
    obtain rfl := Option.some.inj hp
    exact ⟨rfl, rest, ht⟩
  · by_cases hleft : left = []
    · rw [hleft, cutFrom_finished] at hp
      cases hp
    · rw [cutFrom_stuck hleft hblank fun t rest ht => hleads ⟨t, rest, ht⟩] at hp
      cases hp

/-- Where nothing is cut off, what is left is nothing, or a character that starts no token. -/
theorem stuck_of_cutFrom {left : List Char} (hblank : ∀ c ∈ left.head?, c ∉ blanks)
    (h : (cutFrom total left).tokens = []) :
    (cutFrom total left).stuckAt = if left = [] then none else some (total - left.length) := by
  by_cases hleft : left = []
  · rw [hleft, cutFrom_finished, if_pos rfl]
  · rw [if_neg hleft]
    by_cases hleads : ∃ t rest, Leads t left rest
    · obtain ⟨t, rest, ht⟩ := hleads
      rw [cutFrom_token ht] at h
      cases h
    · rw [cutFrom_stuck hleft hblank fun t rest ht => hleads ⟨t, rest, ht⟩]

/-- The place that is told when some of a text is left over. -/
theorem refusal_left {c : Cut} {left : List Char} (hc : c.stuckAt = (cutFrom total left).stuckAt)
    (hblank : ∀ c ∈ left.head?, c ∉ blanks) :
    c.refusal (cutFrom total left).tokens =
      if left = [] then .atEnd else .at (total - left.length) := by
  cases htokens : (cutFrom total left).tokens with
  | nil =>
    rw [Cut.refusal, hc, stuck_of_cutFrom hblank htokens]
    split_ifs <;> rfl
  | cons p rest =>
    obtain ⟨hplace, later, hleads⟩ := leads_of_cutFrom (p := p) hblank (by rw [htokens]; rfl)
    have hleft : left ≠ [] := by
      rintro rfl
      rw [cutFrom_finished] at htokens
      cases htokens
    rw [if_neg hleft, Cut.refusal, hplace]

/-- Reading refuses a text at a character exactly when that character offends. -/
theorem refused_at_iff {cs : List Char} {n : Nat} :
    (cut cs).read = .error (.at n) ↔ Offends cs n := by
  constructor
  · intro h
    obtain ⟨ps, rest, htokens, hviable, hstop, hplace⟩ := Cut.read_error h
    obtain ⟨left, hbegins, rfl, hstuck⟩ := begins_of_split htokens
    have hrefusal := refusal_left (c := cut cs) hstuck.symm hbegins.not_blank
    rw [← hplace] at hrefusal
    split_ifs at hrefusal with hleft
    obtain rfl := Refusal.at.inj hrefusal
    have hdrop : cs.drop (cs.length - left.length) = left :=
      (List.suffix_iff_eq_drop.mp hbegins.suffix).symm
    have hlength := hbegins.suffix.length_le
    have hpos := List.length_pos_of_ne_nil hleft
    refine ⟨by omega, kinds ps, hdrop.symm ▸ hbegins, hviable, fun t later ht => ?_⟩
    rw [hdrop] at ht
    exact hstop (t, _) (by rw [cutFrom_token ht]; rfl)
  · rintro ⟨hn, ts, hbegins, hviable, hstop⟩
    obtain ⟨ps, rfl, htokens, hstuck⟩ := hbegins.cutFrom cs.length
    have hleft : cs.drop n ≠ [] := by
      rw [Ne, List.drop_eq_nil_iff]
      omega
    have hrefusal := refusal_left (c := cut cs) hstuck hbegins.not_blank
    rw [if_neg hleft, List.length_drop, Nat.sub_sub_self (Nat.le_of_lt hn)] at hrefusal
    rw [← hrefusal]
    refine Cut.read_eq_error htokens hviable (fun p hp => ?_) ?_
    · obtain ⟨-, rest, hleads⟩ := leads_of_cutFrom hbegins.not_blank hp
      exact hstop p.1 rest hleads
    · by_cases hnone : (cutFrom cs.length (cs.drop n)).tokens = []
      · refine .inr (ne_of_eq_of_ne hstuck ?_)
        rw [stuck_of_cutFrom hbegins.not_blank hnone, if_neg hleft]
        exact Option.some_ne_none _
      · exact .inl hnone

end Index
end Hyperslab
