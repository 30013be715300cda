/-!
# Lines of a text

A text is cut after a line feed, a carriage return, the two together, a vertical tab, a form feed,
one of the three upper information separators, a next-line character and the two Unicode
separators.  The last line need not be closed, and an empty rest is no line.
-/
namespace Hyperslab
namespace Text

def isLineBreak (c : Char) : Bool :=
  let n := c.toNat
  (10 ≤ n && n ≤ 13) || (28 ≤ n && n ≤ 30) || n == 0x85 || n == 0x2028 || n == 0x2029

/-- The lines of a text without their breaks; `line` is the part of the current one that is
already read. -/
def linesFrom (line : List Char) : List Char → List (List Char)
  | [] => if line.isEmpty then [] else [line]
  | '\r' :: '\n' :: rest => line :: linesFrom [] rest
  | c :: rest => if isLineBreak c then line :: linesFrom [] rest else linesFrom (line ++ [c]) rest

def lines (cs : List Char) : List (List Char) := linesFrom [] cs

/-- Line and column, both from one, of the character after `before`; only a line feed ends a line
here. -/
def position (before : List Char) : Nat × Nat :=
  (before.count '\n' + 1, (before.reverse.takeWhile (· != '\n')).length + 1)

end Text
end Hyperslab
