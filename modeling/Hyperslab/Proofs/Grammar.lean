import Hyperslab.Proofs.Spelling

/-!
# The language of textual indices

The grammar is given rule by rule as relations between tokens and what they stand for.  Reading is
sound and complete for it: one token of look-ahead is enough because an item ends only where the
tokens end, at a comma, or at the closing bracket, and no item starts with one of these.
-/
namespace Hyperslab
namespace Index

/-! ## The rules -/

/-- A bound that may be missing. -/
inductive IsBound : List Token → Option Int → Prop
  | missing : IsBound [] none
  | whole (n : Int) : IsBound [.whole n] (some n)

/-- The step of a span, which a second colon opens. -/
inductive IsStep : List Token → Option Int → Prop
  | missing : IsStep [] none
  | colon {ts step} (h : IsBound ts step) : IsStep (.colon :: ts) step

inductive IsEntry : List Token → Item → Prop
  | ellipsis : IsEntry [.dots] .ellipsis
  | newAxis : IsEntry [.newAxis] .newAxis
  | point (n : Int) : IsEntry [.whole n] (.point n)
  | span {as bs cs start stop step} (ha : IsBound as start) (hb : IsBound bs stop)
      (hc : IsStep cs step) : IsEntry (as ++ .colon :: (bs ++ cs)) (.span start stop step)

/-- One or more entries with commas between them. -/
inductive IsRun : List Token → List Item → Prop
  | one {ts i} (h : IsEntry ts i) : IsRun ts [i]
  | more {ts us i key} (h : IsEntry ts i) (hr : IsRun us key) :
      IsRun (ts ++ .comma :: us) (i :: key)

inductive IsList : List Token → List Item → Prop
  | empty : IsList [] []
  | run {ts key} (h : IsRun ts key) : IsList ts key
  | trailing {ts key} (h : IsRun ts key) : IsList (ts ++ [.comma]) key

inductive IsIndex : List Token → List Item → Prop
  | bare {ts key} (h : IsList ts key) : IsIndex ts key
  | bracketed {ts key} (h : IsList ts key) : IsIndex (.openBracket :: (ts ++ [.closeBracket])) key

/-- A text of the language, and its items. -/
def Denotes (cs : List Char) (key : List Item) : Prop := ∃ ts, Written cs ts ∧ IsIndex ts key

/-! ## Numbers stand apart -/

theorem IsBound.apart {ts : List Token} {n : Option Int} (h : IsBound ts n) : Apart ts := by
  cases h with
  | missing => exact List.isChain_nil
  | whole n => exact apart_singleton _

theorem IsEntry.apart {ts : List Token} {i : Item} (h : IsEntry ts i) : Apart ts := by
  cases h with
  | ellipsis | newAxis | point => exact apart_singleton _
  | span ha hb hc =>
    apply ha.apart.join rfl
    cases hc with
    | missing => rw [List.append_nil]; exact hb.apart
    | colon hc => exact hb.apart.join rfl hc.apart

theorem IsRun.apart {ts : List Token} {key : List Item} (h : IsRun ts key) : Apart ts := by
  induction h with
  | one h => exact h.apart
  | more h _ ih => exact h.apart.join rfl ih

theorem IsList.apart {ts : List Token} {key : List Item} (h : IsList ts key) : Apart ts := by
  cases h with
  | empty => exact List.isChain_nil
  | run h => exact h.apart
  | trailing h => exact h.apart.join rfl List.isChain_nil

theorem IsIndex.apart {ts : List Token} {key : List Item} (h : IsIndex ts key) : Apart ts := by
  cases h with
  | bare h => exact h.apart
  | bracketed h =>
    have hnil : Apart [] := List.isChain_nil
    exact hnil.join rfl (h.apart.join rfl hnil)

/-! ## What is read belongs to the language -/

/-- The tokens without their places. -/
def kinds (ts : List Placed) : List Token := ts.map Prod.fst

@[simp] theorem kinds_nil : kinds [] = [] := rfl

@[simp] theorem kinds_cons (t : Token) (o : Nat) (ts : List Placed) :
    kinds ((t, o) :: ts) = t :: kinds ts := rfl

@[simp] theorem kinds_append (ps qs : List Placed) : kinds (ps ++ qs) = kinds ps ++ kinds qs :=
  List.map_append

theorem kinds_eq_cons {ts : List Placed} {t : Token} {us : List Token} (h : kinds ts = t :: us) :
    ∃ o rest, ts = (t, o) :: rest ∧ kinds rest = us := by
  obtain ⟨⟨t', o⟩, rest, rfl, rfl, hrest⟩ := List.map_eq_cons_iff.mp h
  exact ⟨o, rest, rfl, hrest⟩

theorem kinds_eq_append {ts : List Placed} {us vs : List Token} (h : kinds ts = us ++ vs) :
    ∃ ps qs, ts = ps ++ qs ∧ kinds ps = us ∧ kinds qs = vs := List.map_eq_append_iff.mp h

theorem kinds_eq_nil {ts : List Placed} (h : kinds ts = []) : ts = [] := List.map_eq_nil_iff.mp h

theorem step_sound (start stop : Option Int) (ts : List Placed) :
    ∃ used s, kinds ts = used ++ kinds (step start stop ts).2 ∧ IsStep used s ∧
      (step start stop ts).1 = .span start stop s := by
  unfold step
  split
  · next n _ rest => exact ⟨[.colon, .whole n], some n, rfl, .colon (.whole n), rfl⟩
  · exact ⟨[.colon], none, rfl, .colon .missing, rfl⟩
  · exact ⟨[], none, rfl, .missing, rfl⟩

theorem spanFrom_sound (start : Option Int) (ts : List Placed) :
    ∃ bs cs stop s, kinds ts = bs ++ cs ++ kinds (spanFrom start ts).2 ∧ IsBound bs stop ∧
      IsStep cs s ∧ (spanFrom start ts).1 = .span start stop s := by
  unfold spanFrom
  split
  · next n o rest =>
    obtain ⟨used, s, hused, hstep, hitem⟩ := step_sound start (some n) rest
    exact ⟨[.whole n], used, some n, s, by simp [hused], .whole n, hstep, hitem⟩
  · obtain ⟨used, s, hused, hstep, hitem⟩ := step_sound start none ts
    exact ⟨[], used, none, s, by simpa using hused, .missing, hstep, hitem⟩

theorem item_sound {ts rest : List Placed} {i : Item} (h : item? ts = some (i, rest)) :
    ∃ used, kinds ts = used ++ kinds rest ∧ IsEntry used i := by
  unfold item? at h
  split at h
  · cases h; exact ⟨[.dots], rfl, .ellipsis⟩
  · cases h; exact ⟨[.newAxis], rfl, .newAxis⟩
  · next n _ _ later =>
    obtain ⟨bs, cs, stop, s, hused, hb, hc, hitem⟩ := spanFrom_sound (some n) later
    rw [Option.some.injEq] at h
    rw [h] at hused hitem
    obtain rfl : i = _ := hitem
    exact ⟨_, by simp [hused], IsEntry.span (.whole n) hb hc⟩
  · next n _ _ _ =>
    cases h
    exact ⟨[.whole n], rfl, .point n⟩
  · next later =>
    obtain ⟨bs, cs, stop, s, hused, hb, hc, hitem⟩ := spanFrom_sound none later
    rw [Option.some.injEq] at h
    rw [h] at hused hitem
    obtain rfl : i = _ := hitem
    exact ⟨_, by simp [hused], IsEntry.span .missing hb hc⟩
  · cases h

/-- An entry and a comma stand before any list. -/
theorem IsList.cons {ts us : List Token} {i : Item} {key : List Item} (hi : IsEntry ts i)
    (h : IsList us key) : IsList (ts ++ .comma :: us) (i :: key) := by
  cases h with
  | empty => exact .trailing (.one hi)
  | run h => exact .run (.more hi h)
  | @trailing us key h =>
    have := IsList.trailing (IsRun.more hi h)
    rwa [List.append_assoc, List.cons_append] at this

theorem items_sound (ts : List Placed) :
    ∃ used, kinds ts = used ++ kinds (items ts).2 ∧ IsList used (items ts).1 := by
  fun_induction items ts with
  | case1 ts h => exact ⟨[], rfl, .empty⟩
  | case2 ts i o rest h later ih =>
    obtain ⟨used, hused, hentry⟩ := item_sound h
    obtain ⟨more, hmore, hlist⟩ := ih
    exact ⟨used ++ .comma :: more, by simp [hused, hmore, later], hlist.cons hentry⟩
  | case3 ts i rest hno h =>
    obtain ⟨used, hused, hentry⟩ := item_sound h
    exact ⟨used, hused, .run (.one hentry)⟩

theorem finish_eq_ok {c : Cut} {found key : List Item} {rest : List Placed} :
    c.finish found rest = .ok key ↔ rest = [] ∧ c.stuckAt = none ∧ found = key := by
  rw [Cut.finish]
  cases rest <;> cases c.stuckAt <;> simp

theorem Cut.read_sound {c : Cut} {key : List Item} (h : c.read = .ok key) :
    c.stuckAt = none ∧ IsIndex (kinds c.tokens) key := by
  unfold Cut.read at h
  split at h
  · next o inner htokens =>
    split at h
    · next found o' rest hitems =>
      obtain ⟨rfl, hstuck, rfl⟩ := finish_eq_ok.mp h
      obtain ⟨used, hused, hlist⟩ := items_sound inner
      rw [hitems] at hused hlist
      refine ⟨hstuck, ?_⟩
      rw [htokens, kinds_cons, hused]
      exact .bracketed hlist
    · cases h
  · obtain ⟨hrest, hstuck, rfl⟩ := finish_eq_ok.mp h
    obtain ⟨used, hused, hlist⟩ := items_sound c.tokens
    rw [hrest, kinds_nil, List.append_nil] at hused
    refine ⟨hstuck, ?_⟩
    rw [hused]
    exact .bare hlist

/-! ## What belongs to the language is read -/

/-- Tokens that no item goes on with. -/
inductive Ends : List Placed → Prop
  | nil : Ends []
  | comma (o : Nat) (rest : List Placed) : Ends ((.comma, o) :: rest)
  | closeBracket (o : Nat) (rest : List Placed) : Ends ((.closeBracket, o) :: rest)

theorem IsBound.placed {ps : List Placed} {n : Option Int} (h : IsBound (kinds ps) n) :
    ps = [] ∧ n = none ∨ ∃ m o, ps = [(.whole m, o)] ∧ n = some m := by
  generalize hk : kinds ps = ts at h
  cases h with
  | missing => exact .inl ⟨kinds_eq_nil hk, rfl⟩
  | whole m =>
    obtain ⟨o, rest, rfl, hrest⟩ := kinds_eq_cons hk
    obtain rfl := kinds_eq_nil hrest
    exact .inr ⟨m, o, rfl, rfl⟩

theorem step_complete {ps rest : List Placed} {s : Option Int} (start stop : Option Int)
    (h : IsStep (kinds ps) s) (he : Ends rest) :
    step start stop (ps ++ rest) = (.span start stop s, rest) := by
  generalize hk : kinds ps = ts at h
  cases h with
  | missing =>
    obtain rfl := kinds_eq_nil hk
    cases he <;> rfl
  | colon hb =>
    obtain ⟨o, qs, rfl, rfl⟩ := kinds_eq_cons hk
    obtain ⟨rfl, rfl⟩ | ⟨m, o', rfl, rfl⟩ := hb.placed
    · cases he <;> rfl
    · rfl

/-- A step does not start with a number, so the bound before it is not mistaken. -/
theorem spanFrom_complete {bs cs rest : List Placed} {stop s : Option Int} (start : Option Int)
    (hb : IsBound (kinds bs) stop) (hc : IsStep (kinds cs) s) (he : Ends rest) :
    spanFrom start (bs ++ (cs ++ rest)) = (.span start stop s, rest) := by
  have hstep := fun stop => step_complete start stop hc he
  obtain ⟨rfl, rfl⟩ | ⟨m, o, rfl, rfl⟩ := hb.placed
  · rw [List.nil_append, ← hstep none, spanFrom]
    intro n o later hl
    generalize hk : kinds cs = ts at hc
    cases hc with
    | missing =>
      obtain rfl := kinds_eq_nil hk
      rw [List.nil_append] at hl
      subst hl
      cases he
    | colon =>
      obtain ⟨o, qs, rfl, -⟩ := kinds_eq_cons hk
      cases hl
  · exact hstep (some m)

theorem item_complete {ps rest : List Placed} {i : Item} (h : IsEntry (kinds ps) i)
    (he : Ends rest) : item? (ps ++ rest) = some (i, rest) := by
  generalize hk : kinds ps = ts at h
  cases h with
  | ellipsis =>
    obtain ⟨o, qs, rfl, hq⟩ := kinds_eq_cons hk
    obtain rfl := kinds_eq_nil hq
    rfl
  | newAxis =>
    obtain ⟨o, qs, rfl, hq⟩ := kinds_eq_cons hk
    obtain rfl := kinds_eq_nil hq
    rfl
  | point n =>
    obtain ⟨o, qs, rfl, hq⟩ := kinds_eq_cons hk
    obtain rfl := kinds_eq_nil hq
    cases he <;> rfl
  | span ha hb hc =>
    obtain ⟨as, qs, rfl, rfl, hqs⟩ := kinds_eq_append hk
    obtain ⟨o, us, rfl, hq⟩ := kinds_eq_cons hqs
    obtain ⟨bs, cs, rfl, rfl, rfl⟩ := kinds_eq_append hq
    have hspan := fun start => spanFrom_complete start hb hc he
    rw [List.append_assoc, List.cons_append, List.append_assoc]
    obtain ⟨rfl, rfl⟩ | ⟨m, o', rfl, rfl⟩ := IsBound.placed ha
    · exact congrArg some (hspan none)
    · exact congrArg some (hspan (some m))

/-- What stands after all the items: nothing, or the closing bracket. -/
inductive Stops : List Placed → Prop
  | nil : Stops []
  | closeBracket (o : Nat) (rest : List Placed) : Stops ((.closeBracket, o) :: rest)

theorem items_of_none {ts : List Placed} (h : item? ts = none) : items ts = ([], ts) := by
  rw [items]
  split
  · rfl
  · next hs => rw [h] at hs; cases hs
  · next hs => rw [h] at hs; cases hs

theorem items_of_comma {ts rest : List Placed} {i : Item} {o : Nat}
    (h : item? ts = some (i, (.comma, o) :: rest)) :
    items ts = (i :: (items rest).1, (items rest).2) := by
  rw [items]
  split
  · next hn => rw [h] at hn; cases hn
  · next hs => rw [h] at hs; cases hs; rfl
  · next hno hs => rw [h] at hs; cases hs; exact absurd rfl (hno o rest)

theorem items_of_last {ts rest : List Placed} {i : Item} (h : item? ts = some (i, rest))
    (hno : ∀ o later, rest ≠ (.comma, o) :: later) : items ts = ([i], rest) := by
  rw [items]
  split
  · next hn => rw [h] at hn; cases hn
  · next o later hs => rw [h] at hs; cases hs; exact absurd rfl (hno o later)
  · next hs => rw [h] at hs; cases hs; rfl

theorem items_stops {rest : List Placed} (h : Stops rest) : items rest = ([], rest) := by
  apply items_of_none
  cases h <;> rfl

theorem items_comma {ps rest : List Placed} {i : Item} {o : Nat} (h : IsEntry (kinds ps) i) :
    items (ps ++ (.comma, o) :: rest) = (i :: (items rest).1, (items rest).2) :=
  items_of_comma (item_complete h (.comma o rest))

theorem items_last {ps rest : List Placed} {i : Item} (h : IsEntry (kinds ps) i)
    (hs : Stops rest) : items (ps ++ rest) = ([i], rest) := by
  have hitem : item? (ps ++ rest) = some (i, rest) := by
    apply item_complete h
    cases hs with
    | nil => exact .nil
    | closeBracket o rest => exact .closeBracket o rest
  apply items_of_last hitem
  rintro o later rfl
  cases hs

theorem items_run {ps rest : List Placed} {key : List Item} (h : IsRun (kinds ps) key)
    (hs : Stops rest) : items (ps ++ rest) = (key, rest) ∧
      ∀ o, items (ps ++ (.comma, o) :: rest) = (key, rest) := by
  generalize hk : kinds ps = ts at h
  induction h generalizing ps with
  | one h =>
    subst hk
    refine ⟨items_last h hs, ?_⟩
    intro o
    rw [items_comma h, items_stops hs]
  | @more ts us i key h _ ih =>
    obtain ⟨as, qs, rfl, rfl, hqs⟩ := kinds_eq_append hk
    obtain ⟨o, us, rfl, hq⟩ := kinds_eq_cons hqs
    obtain ⟨hrun, htrail⟩ := ih hq
    rw [List.append_assoc, List.cons_append, items_comma h, hrun]
    refine ⟨rfl, ?_⟩
    intro o'
    rw [List.append_assoc, List.cons_append, items_comma h, htrail]

theorem items_list {ps rest : List Placed} {key : List Item} (h : IsList (kinds ps) key)
    (hs : Stops rest) : items (ps ++ rest) = (key, rest) := by
  generalize hk : kinds ps = ts at h
  cases h with
  | empty =>
    obtain rfl := kinds_eq_nil hk
    exact items_stops hs
  | run h =>
    subst hk
    exact (items_run h hs).1
  | trailing h =>
    obtain ⟨as, qs, rfl, rfl, hqs⟩ := kinds_eq_append hk
    obtain ⟨o, us, rfl, hq⟩ := kinds_eq_cons hqs
    obtain rfl := kinds_eq_nil hq
    rw [List.append_assoc]
    exact (items_run h hs).2 o

/-- No list starts with a bracket, so a text that does is read as one in brackets. -/
theorem IsList.not_bracket {ts : List Token} {key : List Item} :
    ¬IsList (.openBracket :: ts) key := by
  have hentry : ∀ {us vs i}, IsEntry us i → us ++ vs ≠ .openBracket :: ts := by
    intro us vs i h he
    cases h with
    | ellipsis | newAxis | point => cases he
    | span ha hb hc => cases ha <;> cases he
  have hrun : ∀ {us vs key}, IsRun us key → us ++ vs ≠ .openBracket :: ts := by
    intro us vs key h he
    cases h with
    | one h => exact hentry h he
    | more h _ =>
      rw [List.append_assoc] at he
      exact hentry h he
  intro h
  generalize hu : Token.openBracket :: ts = us at h
  cases h with
  | empty => cases hu
  | run h => exact hrun h (by rw [List.append_nil, ← hu])
  | trailing h => exact hrun h hu.symm

theorem Cut.read_complete {c : Cut} {key : List Item} (hs : c.stuckAt = none)
    (h : IsIndex (kinds c.tokens) key) : c.read = .ok key := by
  generalize hk : kinds c.tokens = ts at h
  cases h with
  | bare h =>
    have hitems : items c.tokens = (key, []) := by
      rw [← hk] at h
      simpa using items_list h .nil
    unfold Cut.read
    split
    · next o inner ht =>
      rw [ht, kinds_cons] at hk
      rw [← hk] at h
      exact absurd h IsList.not_bracket
    · rw [hitems]
      exact finish_eq_ok.mpr ⟨rfl, hs, rfl⟩
  | bracketed h =>
    obtain ⟨o, inner, ht, hinner⟩ := kinds_eq_cons hk
    obtain ⟨ps, qs, rfl, rfl, hqs⟩ := kinds_eq_append hinner
    obtain ⟨o', us, rfl, hq⟩ := kinds_eq_cons hqs
    obtain rfl := kinds_eq_nil hq
    have hitems := items_list h (.closeBracket o' [])
    rw [Cut.read, ht]
    dsimp only
    rw [hitems]
    exact finish_eq_ok.mpr ⟨rfl, hs, rfl⟩

/-! ## Texts -/

theorem read_cut_iff {cs : List Char} {key : List Item} :
    (cut cs).read = .ok key ↔ Denotes cs key := by
  constructor
  · intro h
    obtain ⟨hstuck, hindex⟩ := Cut.read_sound h
    exact ⟨_, cutFrom_sound hstuck, hindex⟩
  · rintro ⟨ts, hw, hi⟩
    obtain ⟨htokens, hstuck⟩ := cutFrom_complete hw hi.apart cs.length
    apply Cut.read_complete hstuck
    change IsIndex ((cutFrom cs.length cs).tokens.map Prod.fst) key
    rw [htokens]
    exact hi

theorem Denotes.unique {cs : List Char} {key key' : List Item} (h : Denotes cs key)
    (h' : Denotes cs key') : key = key' := by
  rw [← read_cut_iff] at h h'
  rw [h] at h'
  exact Except.ok.inj h'

theorem cut_read_error_iff {cs : List Char} :
    (∃ r, (cut cs).read = .error r) ↔ ¬∃ key, Denotes cs key := by
  simp only [← read_cut_iff]
  cases (cut cs).read with
  | error r => simp
  | ok found => simp

/-- A text is read exactly when it belongs to the language, and what is read is the one key it
stands for.  Any other text is a syntax error; a text of the language is refused only for a number
that is too long to be a numeral. -/
theorem read_language (text : String) :
    (∀ key, Index.read text = .ok key ↔ Denotes text.toList key ∧ ¬LongNumeral text.toList) ∧
    ((∃ r : Refusal, Index.read text =
        .error (.malformedIndex "Syntax error while parsing index spec" (r.location text.toList))) ↔
      ¬∃ key, Denotes text.toList key) ∧
    (Index.read text = .error .longNumeral ↔
      (∃ key, Denotes text.toList key) ∧ LongNumeral text.toList) ∧
    ∀ key key', Denotes text.toList key → Denotes text.toList key' → key = key' := by
  refine ⟨?_, ?_, ?_, fun key key' h h' => h.unique h'⟩
  · intro key
    rw [← read_cut_iff, ← hasLongNumeral_iff, Index.read]
    cases (cut text.toList).read with
    | error r => simp
    | ok found => cases hasLongNumeral 0 text.toList <;> simp
  · rw [← cut_read_error_iff, Index.read]
    cases (cut text.toList).read with
    | error r => simp
    | ok found => cases hasLongNumeral 0 text.toList <;> simp
  · simp only [← read_cut_iff, ← hasLongNumeral_iff, Index.read]
    cases (cut text.toList).read with
    | error r => simp
    | ok found => cases hasLongNumeral 0 text.toList <;> simp

theorem read_language_brackets :
    Index.read "[-2: , None,]" = .ok [.span (some (-2)) none none, .newAxis] := by
  have hw : Written "[-2: , None,]".toList
      [.openBracket, .whole (-2), .colon, .comma, .newAxis, .comma, .closeBracket] := by
    have hb : ∀ c ∈ ([] : List Char), c ∈ blanks := List.forall_mem_nil _
    have hb' : ∀ c ∈ [' '], c ∈ blanks := List.forall_mem_singleton.mpr List.mem_cons_self
    have hd : Digits ['2'] := ⟨List.cons_ne_nil _ _, List.forall_mem_singleton.mpr rfl⟩
    apply Written.cons hb .openBracket
    apply Written.cons hb (.minus hd)
    apply Written.cons hb .colon
    apply Written.cons hb' .comma
    apply Written.cons hb' .none
    apply Written.cons hb .comma
    apply Written.cons hb .closeBracket
    exact Written.nil hb
  have hspan : IsEntry [.whole (-2), .colon] (.span (some (-2)) none none) :=
    .span (.whole (-2)) .missing .missing
  have hi : IsIndex [.openBracket, .whole (-2), .colon, .comma, .newAxis, .comma, .closeBracket]
      [.span (some (-2)) none none, .newAxis] :=
    .bracketed (.trailing (.more hspan (.one .newAxis)))
  apply ((read_language _).1 _).mpr
  refine ⟨⟨_, hw, hi⟩, ?_⟩
  rw [← hasLongNumeral_iff]
  decide

end Index
end Hyperslab
