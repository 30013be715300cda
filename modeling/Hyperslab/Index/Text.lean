import Hyperslab.Index.Item
import Hyperslab.Index.Token
import Hyperslab.Text.Lines

/-!
# Textual indices

An index is written as its items with commas between them; one comma may follow the last item, and
one pair of brackets may stand around all of them.  One token of look-ahead decides every choice, so
a text that is no index is refused at the first place where no token of an index can follow.
-/
namespace Hyperslab
namespace Index

/-! ## Cutting a text into tokens -/

theorem length_scanWhole {sign : Int} {cs rest : List Char} {t : Token}
    (h : Token.scanWhole sign cs = some (t, rest)) : rest.length < cs.length := by
  have hlen : (cs.takeWhile isDigit).length + (cs.dropWhile isDigit).length = cs.length := by
    rw [← List.length_append, List.takeWhile_append_dropWhile]
  unfold Token.scanWhole at h
  cases hw : cs.takeWhile isDigit with
  | nil => rw [hw] at h; cases h
  | cons d ds =>
    rw [hw] at h hlen
    cases h
    rw [List.length_cons] at hlen
    omega

theorem length_scan {cs rest : List Char} {t : Token} (h : Token.scan cs = some (t, rest)) :
    rest.length < cs.length := by
  unfold Token.scan at h
  split at h <;> first
    | (cases h; simp only [List.length_cons]; omega)
    | (have hw := length_scanWhole h; simp only [List.length_cons]; omega)
    | exact length_scanWhole h

theorem length_head {cs rest : List Char} {t : Token} (h : head cs = .token t rest) :
    rest.length < cs.length := by
  unfold head at h
  split at h
  · cases h
  · split at h
    · next hs => cases h; exact length_scan hs
    · cases h

theorem length_dropWhile_le {α : Type} (p : α → Bool) (l : List α) :
    (l.dropWhile p).length ≤ l.length := by
  induction l with
  | nil => exact Nat.le_refl 0
  | cons a rest ih =>
    rw [List.dropWhile_cons]
    split
    · exact Nat.le_succ_of_le ih
    · exact Nat.le_refl _

/-- A token and the number of characters before it. -/
abbrev Placed := Token × Nat

/-- The tokens of a text, and the place where no token can be cut off, if there is one. -/
structure Cut where
  tokens : List Placed
  stuckAt : Option Nat

/-- The tokens of the last characters of a text of `total` characters. -/
def cutFrom (total : Nat) (cs : List Char) : Cut :=
  let offset := total - (cs.dropWhile isSpace).length
  match _h : head (cs.dropWhile isSpace) with
  | .finished => ⟨[], none⟩
  | .stuck => ⟨[], some offset⟩
  | .token t rest =>
    let later := cutFrom total rest
    ⟨(t, offset) :: later.tokens, later.stuckAt⟩
  termination_by cs.length
  decreasing_by
    have h1 := length_head _h
    have h2 := length_dropWhile_le isSpace cs
    omega

def cut (cs : List Char) : Cut := cutFrom cs.length cs

/-! ## Reading the tokens -/

/-- The step of a span, after its two bounds. -/
def step (start stop : Option Int) : List Placed → Item × List Placed
  | (.colon, _) :: (.whole n, _) :: rest => (.span start stop (some n), rest)
  | (.colon, _) :: rest => (.span start stop none, rest)
  | rest => (.span start stop none, rest)

/-- The rest of a span, after its first colon. -/
def spanFrom (start : Option Int) : List Placed → Item × List Placed
  | (.whole n, _) :: rest => step start (some n) rest
  | rest => step start none rest

/-- The item at the head of the tokens, if an item starts there; whatever starts like an item is
one. -/
def item? : List Placed → Option (Item × List Placed)
  | (.dots, _) :: rest => some (.ellipsis, rest)
  | (.newAxis, _) :: rest => some (.newAxis, rest)
  | (.whole n, _) :: (.colon, _) :: rest => some (spanFrom (some n) rest)
  | (.whole n, _) :: rest => some (.point n, rest)
  | (.colon, _) :: rest => some (spanFrom none rest)
  | _ => none

theorem length_step_le (start stop : Option Int) (ts : List Placed) :
    (step start stop ts).2.length ≤ ts.length := by
  unfold step
  split <;> simp only [List.length_cons] <;> omega

theorem length_spanFrom_le (start : Option Int) (ts : List Placed) :
    (spanFrom start ts).2.length ≤ ts.length := by
  unfold spanFrom
  split
  · have := length_step_le start (some ‹Int›) ‹List Placed›
    simp only [List.length_cons]
    omega
  · exact length_step_le _ _ _

theorem length_item {ts rest : List Placed} {i : Item} (h : item? ts = some (i, rest)) :
    rest.length < ts.length := by
  unfold item? at h
  split at h
  · cases h; simp
  · cases h; simp
  · next n _ _ r =>
    have := length_spanFrom_le (some n) r
    rw [Option.some.injEq] at h
    rw [h] at this
    simp only [List.length_cons] at this ⊢
    omega
  · cases h; simp
  · next r =>
    have := length_spanFrom_le none r
    rw [Option.some.injEq] at h
    rw [h] at this
    simp only [List.length_cons] at this ⊢
    omega
  · cases h

/-- The items at the head of the tokens, with a comma after each but perhaps the last. -/
def items (ts : List Placed) : List Item × List Placed :=
  match _h : item? ts with
  | none => ([], ts)
  | some (i, (.comma, _) :: rest) =>
    let later := items rest
    (i :: later.1, later.2)
  | some (i, rest) => ([i], rest)
  termination_by ts.length
  decreasing_by
    have := length_item _h
    simp only [List.length_cons] at this
    omega

/-- Where a text is refused. -/
inductive Refusal where
  /-- At the character with this many characters before it. -/
  | at (offset : Nat)
  /-- At the end, where more is needed. -/
  | atEnd
  deriving DecidableEq, Repr

namespace Cut

/-- The place where reading stops when `rest` is left over. -/
def refusal (c : Cut) : List Placed → Refusal
  | (_, offset) :: _ => .at offset
  | [] => match c.stuckAt with
    | some offset => .at offset
    | none => .atEnd

/-- Nothing may follow. -/
def finish (c : Cut) (found : List Item) (rest : List Placed) : Except Refusal (List Item) :=
  if rest.isEmpty && c.stuckAt.isNone then .ok found else .error (c.refusal rest)

def read (c : Cut) : Except Refusal (List Item) :=
  match c.tokens with
  | (.openBracket, _) :: inner =>
    match items inner with
    | (found, (.closeBracket, _) :: rest) => c.finish found rest
    | (_, rest) => .error (c.refusal rest)
  | ts => let (found, rest) := items ts; c.finish found rest

end Cut

/-- The place of a refusal in its text.  Lines are counted by line feeds, but the line shown is one
of the lines of the text; a refusal at the end is told at the start. -/
def Refusal.location (cs : List Char) (r : Refusal) : Location :=
  let (line, column) := match r with
    | .at offset => Text.position (cs.take offset)
    | .atEnd => (1, 1)
  ⟨some line, some column, some (String.ofList ((Text.lines cs)[line - 1]?.getD []))⟩

/-- Whether some run of digits is longer than a numeral may be; `count` digits stand before the
text. -/
def hasLongNumeral (count : Nat) : List Char → Bool
  | [] => Text.maxDigits < count
  | c :: rest =>
    if isDigit c then hasLongNumeral (count + 1) rest
    else Text.maxDigits < count || hasLongNumeral 0 rest

/-- The items of a textual index.  A number of the index is a numeral, and what has the form of an
index is refused if one of its numbers is too long for it. -/
def read (text : String) : Except Fault (List Item) :=
  match (cut text.toList).read with
  | .ok found => if hasLongNumeral 0 text.toList then .error .longNumeral else .ok found
  | .error r =>
    .error (.malformedIndex "Syntax error while parsing index spec" (r.location text.toList))

end Index
end Hyperslab
