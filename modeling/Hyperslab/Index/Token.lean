/-!
# Tokens of a textual index

The first character of a token tells which token it is, so a text is cut in only one way.  A whole
number takes all the digits that follow.  Space, tab, form feed, carriage return and line feed may
stand between tokens.
-/
namespace Hyperslab
namespace Index

inductive Token where
  | dots
  | newAxis
  | whole (n : Int)
  | colon
  | comma
  | openBracket
  | closeBracket
  deriving DecidableEq, Repr

/-- What may stand between tokens. -/
def isSpace (c : Char) : Bool :=
  c == ' ' || c == '\t' || c == '\n' || c == '\r' || c == Char.ofNat 12

def isDigit (c : Char) : Bool := 48 ≤ c.toNat && c.toNat ≤ 57

/-- The value of a run of digits. -/
def digitsValue (cs : List Char) : Nat := cs.foldl (fun n c => 10 * n + (c.toNat - 48)) 0

namespace Token

/-- A whole number at the head of a text, after its sign. -/
def scanWhole (sign : Int) (cs : List Char) : Option (Token × List Char) :=
  match cs.takeWhile isDigit with
  | [] => none
  | ds => some (whole (sign * digitsValue ds), cs.dropWhile isDigit)

/-- The token at the head of a text, and what follows it. -/
def scan : List Char → Option (Token × List Char)
  | '.' :: '.' :: '.' :: rest => some (dots, rest)
  | 'n' :: 'e' :: 'w' :: 'a' :: 'x' :: 'i' :: 's' :: rest => some (newAxis, rest)
  | 'N' :: 'o' :: 'n' :: 'e' :: rest => some (newAxis, rest)
  | ':' :: rest => some (colon, rest)
  | ',' :: rest => some (comma, rest)
  | '[' :: rest => some (openBracket, rest)
  | ']' :: rest => some (closeBracket, rest)
  | '-' :: rest => scanWhole (-1) rest
  | '+' :: rest => scanWhole 1 rest
  | cs => scanWhole 1 cs

end Token

/-- Whether a text is spent, and if it is not, what it starts with. -/
inductive Head where
  | finished
  | token (t : Token) (rest : List Char)
  | stuck

/-- The head of a text that starts with no blank. -/
def head : List Char → Head
  | [] => .finished
  | cs => match Token.scan cs with
    | some (t, rest) => .token t rest
    | none => .stuck

end Index
end Hyperslab
