import Hyperslab.Proofs.Refusals

/-!
# The caret of a syntax error

A syntax error tells the line and the column of the character that offends, and shows
a line of the text with a caret under that column.  Columns are counted from the last
line feed, and the line is taken from a cut of the text at every line break, so the
caret is under the character as long as line feeds, with or without a carriage return
before them, are the only breaks up to there.
-/

namespace Hyperslab

namespace Text

/-! ## Lines -/

/-- A line of a text, between what stands before it and after it. -/
structure IsLine (before line after : List Char) : Prop where
  solid : ∀ c ∈ line, isLineBreak c = false
  opened : ∀ c ∈ before.getLast?, isLineBreak c = true
  closed : ∀ c ∈ after.head?, isLineBreak c = true

/-- Up to the character number `n`, each line break is a line feed or a carriage return and a line
feed. -/
def Plain (cs : List Char) (n : Nat) : Prop :=
  ∀ i ≤ n, ∀ c ∈ cs[i]?, isLineBreak c = true → c = '\n' ∨ c = '\r' ∧ cs[i + 1]? = some '\n'

instance (cs : List Char) (n : Nat) : Decidable (Plain cs n) :=
  @Nat.decidableBallLE n _ fun i _ =>
    @Option.decidableForallMem _ _ (fun _ => inferInstance) cs[i]?

/-- How many characters stand between the last line feed and the end of a text. -/
def margin (before : List Char) : Nat := (before.reverse.takeWhile (· != '\n')).length

theorem margin_after_feed (before rest : List Char) :
    margin (before ++ '\n' :: rest) = margin rest := by
  have hstop : ((before ++ '\n' :: rest).reverse.takeWhile (· != '\n')) =
      rest.reverse.takeWhile (· != '\n') := by
    rw [List.reverse_append, List.reverse_cons, List.append_assoc, List.singleton_append]
    induction rest.reverse with
    | nil => rfl
    | cons c cs ih =>
      rw [List.cons_append, List.takeWhile_cons, List.takeWhile_cons, ih]
  rw [margin, margin, hstop]

theorem margin_of_solid {cs : List Char} (h : ∀ c ∈ cs, isLineBreak c = false) :
    margin cs = cs.length := by
  rw [margin, List.takeWhile_eq_self_iff.mpr, List.length_reverse]
  intro c hc
  rw [bne_iff_ne]
  rintro rfl
  exact absurd (h _ (List.mem_reverse.mp hc)) (by decide)

theorem Plain.drop {cs : List Char} {n : Nat} (h : Plain cs n) {k : Nat} (hk : k ≤ n) :
    Plain (cs.drop k) (n - k) := by
  intro i hi c hc hbreak
  rw [List.getElem?_drop] at hc
  rw [List.getElem?_drop]
  exact h (k + i) (by omega) c hc hbreak

/-- The first line, the start of which is already read. -/
theorem linesFrom_first {line : List Char} (hline : line ≠ []) (cs : List Char) :
    (linesFrom line cs)[0]? = some (line ++ cs.takeWhile fun c => !isLineBreak c) := by
  fun_induction linesFrom line cs with
  | case1 line h => exact absurd (List.isEmpty_iff.mp h) hline
  | case2 line h => simp
  | case3 line rest ih =>
    rw [List.takeWhile_cons_of_neg (by decide), List.append_nil]
    rfl
  | case4 line c rest hno hbreak ih =>
    rw [List.takeWhile_cons_of_neg (by simp [hbreak]), List.append_nil]
    rfl
  | case5 line c rest hno hbreak ih =>
    rw [ih (by simp), List.takeWhile_cons_of_pos (by simp [hbreak]), List.append_assoc]
    rfl

/-- The character number `n` of a text is in one of some lines, where line and column say; `line` is
the part of the first line that stands before the text. -/
def Shown (line cs : List Char) (n : Nat) (lines : List (List Char)) : Prop :=
  ∃ before found after, line ++ cs = before ++ (found ++ after) ∧ IsLine before found after ∧
    lines[(cs.take n).count '\n']? = some found ∧
    before.length + margin (line ++ cs.take n) = line.length + n ∧
    margin (line ++ cs.take n) < found.length

/-- A line that is closed by a line feed moves what comes later down by one. -/
theorem Shown.after_line {line closing rest : List Char} {n : Nat} {lines : List (List Char)}
    (hclosing : closing = ['\n'] ∨ closing = ['\r', '\n']) (h : Shown [] rest n lines) :
    Shown line (closing ++ rest) (closing.length + n) (line :: lines) := by
  obtain ⟨body, hbody, hcount⟩ : ∃ body, closing = body ++ ['\n'] ∧ closing.count '\n' = 1 := by
    rcases hclosing with rfl | rfl
    · exact ⟨[], rfl, rfl⟩
    · exact ⟨['\r'], rfl, rfl⟩
  obtain ⟨before, found, after, hcs, hfound, hlines, hplace, hmargin⟩ := h
  have htake : (closing ++ rest).take (closing.length + n) = closing ++ rest.take n :=
    List.take_length_add_append n
  have hshift : margin (line ++ (closing ++ rest).take (closing.length + n)) =
      margin (rest.take n) := by
    rw [htake, hbody, List.append_assoc, List.singleton_append, ← List.append_assoc,
      margin_after_feed]
  refine ⟨line ++ closing ++ before, found, after, ?_, ⟨hfound.solid, ?_, hfound.closed⟩, ?_, ?_,
    ?_⟩
  · rw [List.append_assoc, List.append_assoc, ← hcs, List.nil_append]
  · intro c hc
    cases hbefore : before with
    | nil =>
      rw [hbefore, List.append_nil, hbody, ← List.append_assoc, List.getLast?_concat] at hc
      obtain rfl := Option.some.inj hc
      decide
    | cons b bs =>
      rw [List.getLast?_append_of_ne_nil _ (hbefore ▸ List.cons_ne_nil b bs)] at hc
      exact hfound.opened c hc
  · rw [htake, List.count_append, hcount, Nat.add_comm]
    exact hlines
  · rw [hshift]
    simp only [List.length_append, List.nil_append, List.length_nil] at hplace ⊢
    omega
  · rw [hshift]
    exact hmargin

/-- A character that is no break stands in the line that is being read. -/
theorem shown_here {line rest : List Char} {c : Char}
    (hmore : ∀ d ∈ line ++ [c], isLineBreak d = false) (hline : ∀ d ∈ line, isLineBreak d = false) :
    Shown line (c :: rest) 0 (linesFrom (line ++ [c]) rest) := by
  have hne : line ++ [c] ≠ [] := List.append_ne_nil_of_right_ne_nil line (List.cons_ne_nil c [])
  refine ⟨[], _, rest.dropWhile fun c => !isLineBreak c, ?_, ⟨?_, nofun, ?_⟩,
    linesFrom_first hne rest, ?_, ?_⟩
  · rw [List.nil_append, List.append_assoc, List.append_assoc, List.takeWhile_append_dropWhile]
    rfl
  · intro d hd
    rcases List.mem_append.mp hd with hd | hd
    · exact hmore d hd
    · simpa using List.mem_takeWhile_imp hd
  · intro d hd
    have hnot := List.head?_dropWhile_not (fun c => !isLineBreak c) rest
    rw [Option.mem_def.mp hd] at hnot
    simpa using hnot
  · rw [List.take_zero, List.append_nil, margin_of_solid hline]
    simp
  · rw [List.take_zero, List.append_nil, margin_of_solid hline]
    simp

/-- A character that is no break is added to the line, and the rest is shown as before. -/
theorem Shown.in_line {line rest : List Char} {c : Char} {n : Nat} {found : List (List Char)}
    (h : Shown (line ++ [c]) rest n found) (hc : isLineBreak c = false) :
    Shown line (c :: rest) (n + 1) found := by
  obtain ⟨before, shown, after, hcs, hshown, hlines, hplace, hmargin⟩ := h
  have htake : line ++ (c :: rest).take (n + 1) = (line ++ [c]) ++ rest.take n := by simp
  have hfeed : c ≠ '\n' := by
    rintro rfl
    exact absurd hc (by decide)
  refine ⟨before, shown, after, ?_, hshown, ?_, ?_, htake ▸ hmargin⟩
  · rw [← hcs, List.append_assoc]
    rfl
  · rw [List.take_succ_cons, List.count_cons_of_ne hfeed]
    exact hlines
  · rw [htake, hplace, List.length_append, List.length_singleton]
    omega

/-- Where line feeds are the only breaks, line and column lead to the character number `n`. -/
theorem linesFrom_shown {line cs : List Char} {n : Nat}
    (hline : ∀ c ∈ line, isLineBreak c = false) (hn : n < cs.length) (hplain : Plain cs n)
    (hchar : ∀ c ∈ cs[n]?, isLineBreak c = false) : Shown line cs n (linesFrom line cs) := by
  fun_induction linesFrom line cs generalizing n with
  | case1 line h => cases hn
  | case2 line h => cases hn
  | case3 line rest ih =>
    match n with
    | 0 | 1 => exact absurd (hchar _ rfl) (by decide)
    | n + 2 =>
      have hrest : Plain rest n := hplain.drop (k := 2) (by omega)
      rw [Nat.add_comm]
      exact (ih nofun (by simpa using hn) hrest hchar).after_line (.inr rfl)
  | case4 line c rest hno hbreak ih =>
    match n with
    | 0 =>
      rw [hchar c rfl] at hbreak
      cases hbreak
    | n + 1 =>
      obtain rfl : c = '\n' := by
        rcases hplain 0 (by omega) c rfl hbreak with hc | ⟨rfl, hc⟩
        · exact hc
        · obtain ⟨later, rfl⟩ := List.head?_eq_some_iff.mp (List.head?_eq_getElem? ▸ hc)
          exact absurd rfl (hno later rfl)
      have hrest : Plain rest n := hplain.drop (k := 1) (by omega)
      rw [Nat.add_comm]
      exact (ih nofun (by simpa using hn) hrest hchar).after_line (.inl rfl)
  | case5 line c rest hno hbreak ih =>
    have hc : isLineBreak c = false := by simpa using hbreak
    have hmore : ∀ d ∈ line ++ [c], isLineBreak d = false := by
      intro d hd
      rcases List.mem_append.mp hd with hd | hd
      · exact hline d hd
      · rw [List.mem_singleton.mp hd]
        exact hc
    match n with
    | 0 => exact shown_here hmore hline
    | n + 1 =>
      have hrest : Plain rest n := hplain.drop (k := 1) (by omega)
      exact (ih hmore (by simpa using hn) hrest hchar).in_line hc

/-- Line and column of a character lead to it, in the line that it stands in. -/
theorem lines_position {cs : List Char} {n : Nat} (hn : n < cs.length) (hplain : Plain cs n)
    (hchar : ∀ c ∈ cs[n]?, isLineBreak c = false) :
    ∃ line before after, cs = before ++ (line ++ after) ∧ IsLine before line after ∧
      (lines cs)[(position (cs.take n)).1 - 1]? = some line ∧
      before.length + ((position (cs.take n)).2 - 1) = n ∧
      (position (cs.take n)).2 ≤ line.length := by
  obtain ⟨before, found, after, hcs, hfound, hlines, hplace, hmargin⟩ :=
    @linesFrom_shown [] cs n nofun hn hplain hchar
  simp only [List.nil_append, List.length_nil, Nat.zero_add] at hcs hplace hmargin
  exact ⟨found, before, after, hcs, hfound, hlines, hplace, hmargin⟩

end Text

namespace Index

/-- No blank offends, so neither do a line feed and a carriage return. -/
theorem Offends.not_break {cs : List Char} {n : Nat} (h : Offends cs n) (hplain : Text.Plain cs n) :
    ∀ c ∈ cs[n]?, Text.isLineBreak c = false := by
  obtain ⟨_, ts, hbegins, _⟩ := h
  intro c hc
  have hblank := hbegins.not_blank c (List.head?_drop ▸ hc)
  refine Bool.eq_false_iff.mpr fun hbreak => ?_
  rcases hplain n (Nat.le_refl n) c hc hbreak with rfl | ⟨rfl, _⟩
  · exact hblank (by decide)
  · exact hblank (by decide)

/-- The caret of a syntax error is under the character that offends, in the line that has it, if
line feeds and carriage returns with them are the only line breaks up to there. -/
theorem caret_under_offender (text : String) (n : Nat) (h : Offends text.toList n)
    (hplain : Text.Plain text.toList n) :
    ∃ (line column : Nat) (shown : String) (before after : List Char),
      Index.read text = .error (.malformedIndex "Syntax error while parsing index spec"
        ⟨some line, some column, some shown⟩) ∧
      -- The line has the column that is told, and the character there is the one that offends.
      1 ≤ column ∧ column ≤ shown.length ∧ shown.toList[column - 1]? = text.toList[n]? ∧
      -- The line is the one that this character stands in.
      text.toList = before ++ (shown.toList ++ after) ∧ Text.IsLine before shown.toList after ∧
      before.length + (column - 1) = n := by
  obtain ⟨line, before, after, htext, hline, hlines, hplace, hcolumn⟩ :=
    Text.lines_position h.1 hplain (h.not_break hplain)
  have hread := refused_at_iff.mpr h
  have hlocation : (Refusal.at n).location text.toList =
      ⟨some (Text.position (text.toList.take n)).1, some (Text.position (text.toList.take n)).2,
        some (String.ofList line)⟩ := by
    rw [Refusal.location]
    dsimp only
    rw [hlines]
    rfl
  have hpos : 1 ≤ (Text.position (text.toList.take n)).2 := Nat.succ_pos _
  generalize (Text.position (text.toList.take n)).1 = k,
    (Text.position (text.toList.take n)).2 = column at *
  refine ⟨k, column, String.ofList line, before, after, ?_, hpos, ?_, ?_, ?_, ?_, hplace⟩
  · rw [Index.read, hread]
    exact congrArg _ (congrArg _ hlocation)
  · simpa using hcolumn
  · rw [String.toList_ofList, htext, ← hplace, List.getElem?_append_right (Nat.le_add_right _ _),
      Nat.add_sub_cancel_left, List.getElem?_append_left (by omega)]
  · rw [String.toList_ofList]
    exact htext
  · rw [String.toList_ofList]
    exact hline

/-- The question mark stands after a line feed, and under the caret. -/
theorem caret_under_offender_second_line : Offends "1,\r\n :?".toList 6 ∧
    Text.Plain "1,\r\n :?".toList 6 ∧
    ∃ (line column : Nat) (shown : String),
      Index.read "1,\r\n :?" = .error (.malformedIndex "Syntax error while parsing index spec"
        ⟨some line, some column, some shown⟩) ∧
      shown.toList[column - 1]? = some '?' := by
  have hoffends : Offends "1,\r\n :?".toList 6 := refused_at_iff.mp (by decide +kernel)
  have hplain : Text.Plain "1,\r\n :?".toList 6 := by decide
  obtain ⟨line, column, shown, _, _, hread, _, _, hchar, _⟩ :=
    caret_under_offender "1,\r\n :?" 6 hoffends hplain
  exact ⟨hoffends, hplain, line, column, shown, hread, hchar⟩

/-- After a form feed the line that is shown does not reach to the column of the caret. -/
theorem caret_past_line : Offends "1,\x0c?".toList 3 ∧
    Index.read "1,\x0c?" = .error (.malformedIndex "Syntax error while parsing index spec"
      ⟨some 1, some 4, some "1,"⟩) ∧
    ¬4 ≤ "1,".length :=
  ⟨refused_at_iff.mp (by decide +kernel), by decide +kernel, by decide⟩

end Index

end Hyperslab
