import Hyperslab.Value

/-!
# Tokens of a JSON text

Brackets, separators and values that are no containers.  A number without a fraction and an exponent
is a whole number of any size; the three words for infinities and for no number are numbers as well.
-/
namespace Hyperslab
namespace Json

inductive Token where
  | openList
  | closeList
  | openDict
  | closeDict
  | comma
  | colon
  | atom (v : Value)

/-- What may stand between tokens. -/
def isSpace (c : Char) : Bool := c == ' ' || c == '\t' || c == '\n' || c == '\r'

def isDigit (c : Char) : Bool := '0' ≤ c && c ≤ '9'

def digitsValue (cs : List Char) : Nat := cs.foldl (fun n c => 10 * n + (c.toNat - 48)) 0

/-! ## Texts -/

def hexValue? (c : Char) : Option Nat :=
  if isDigit c then some (c.toNat - 48)
  else if 'a' ≤ c && c ≤ 'f' then some (c.toNat - 87)
  else if 'A' ≤ c && c ≤ 'F' then some (c.toNat - 55)
  else none

/-- The value of four digits in base sixteen. -/
def unit? (a b c d : Char) : Option Nat := do
  return ((← hexValue? a) * 4096 + (← hexValue? b) * 256 + (← hexValue? c) * 16 + (← hexValue? d))

/-- The character of two units that stand for one character beyond the first 65536. -/
def pairChar (high low : Nat) : Char :=
  Char.ofNat (0x10000 + (high - 0xD800) * 1024 + (low - 0xDC00))

def isHigh (u : Nat) : Bool := 0xD800 ≤ u && u < 0xDC00

def isLow (u : Nat) : Bool := 0xDC00 ≤ u && u < 0xE000

/-- The character of a single unit; half of a pair is replaced. -/
def unitChar (u : Nat) : Char := if isHigh u || isLow u then Char.ofNat 0xFFFD else Char.ofNat u

/-- The character after a backslash, where it is a single one. -/
def escaped? : Char → Option Char
  | '"' => some '"'
  | '\\' => some '\\'
  | '/' => some '/'
  | 'b' => some (Char.ofNat 8)
  | 'f' => some (Char.ofNat 12)
  | 'n' => some '\n'
  | 'r' => some '\r'
  | 't' => some '\t'
  | _ => none

/-- The rest of a text after its first quote; `read` is what was read of it, last character
first. -/
def scanText (read : List Char) : List Char → Option (List Char × List Char)
  | [] => none
  | '"' :: rest => some (read.reverse, rest)
  | '\\' :: 'u' :: a :: b :: c :: d :: '\\' :: 'u' :: e :: f :: g :: h :: rest =>
    match unit? a b c d, unit? e f g h with
    | some u, some v =>
      if isHigh u && isLow v then scanText (pairChar u v :: read) rest
      else scanText (unitChar u :: read) ('\\' :: 'u' :: e :: f :: g :: h :: rest)
    | some u, none => scanText (unitChar u :: read) ('\\' :: 'u' :: e :: f :: g :: h :: rest)
    | none, _ => none
  | '\\' :: 'u' :: a :: b :: c :: d :: rest =>
    match unit? a b c d with
    | some u => scanText (unitChar u :: read) rest
    | none => none
  | '\\' :: c :: rest =>
    match escaped? c with
    | some e => scanText (e :: read) rest
    | none => none
  | c :: rest => if c.toNat < 32 then none else scanText (c :: read) rest
  termination_by cs => cs.length

/-! ## Numbers -/

/-- The digits before the point: a zero alone, or digits without a zero in front. -/
def scanWhole : List Char → List Char × List Char
  | '0' :: rest => (['0'], rest)
  | cs => (cs.takeWhile isDigit, cs.dropWhile isDigit)

/-- The digits after a point, if there are any. -/
def scanFraction : List Char → List Char × List Char
  | '.' :: rest =>
    if (rest.takeWhile isDigit).isEmpty then ([], '.' :: rest)
    else (rest.takeWhile isDigit, rest.dropWhile isDigit)
  | cs => ([], cs)

/-- An exponent, if there is one. -/
def scanExponent : List Char → Option Int × List Char
  | mark :: cs =>
    let (sign, body) : Int × List Char := match cs with
      | '-' :: rest => (-1, rest)
      | '+' :: rest => (1, rest)
      | _ => (1, cs)
    if (mark == 'e' || mark == 'E') && !(body.takeWhile isDigit).isEmpty then
      (some (sign * digitsValue (body.takeWhile isDigit)), body.dropWhile isDigit)
    else (none, mark :: cs)
  | [] => (none, [])

/-- A number without its sign. -/
def scanNumber (negative : Bool) (cs : List Char) : Option (Value × List Char) :=
  let (whole, rest) := scanWhole cs
  let (fraction, rest) := scanFraction rest
  let (exponent, rest) := scanExponent rest
  if whole.isEmpty then none
  else if fraction.isEmpty && exponent.isNone then
    let n : Int := digitsValue whole
    some (.whole (if negative then -n else n), rest)
  else
    let d : Number.Decimal := ⟨digitsValue (whole ++ fraction), exponent.getD 0 - fraction.length⟩
    some (.float (Number.binary64.withSign negative (d.round Number.binary64)), rest)

def infinite (negative : Bool) : Value :=
  .float (Number.binary64.withSign negative Number.binary64.infinity)

/-- The token at the head of a text, and what follows it. -/
def scan : List Char → Option (Token × List Char)
  | '[' :: rest => some (.openList, rest)
  | ']' :: rest => some (.closeList, rest)
  | '\x7b' :: rest => some (.openDict, rest)
  | '\x7d' :: rest => some (.closeDict, rest)
  | ',' :: rest => some (.comma, rest)
  | ':' :: rest => some (.colon, rest)
  | '"' :: rest => (scanText [] rest).map fun (s, rest) => (.atom (.text (String.ofList s)), rest)
  | 't' :: 'r' :: 'u' :: 'e' :: rest => some (.atom (.boolean true), rest)
  | 'f' :: 'a' :: 'l' :: 's' :: 'e' :: rest => some (.atom (.boolean false), rest)
  | 'n' :: 'u' :: 'l' :: 'l' :: rest => some (.atom .null, rest)
  | 'N' :: 'a' :: 'N' :: rest => some (.atom (.float Number.binary64.quietNan), rest)
  | 'I' :: 'n' :: 'f' :: 'i' :: 'n' :: 'i' :: 't' :: 'y' :: rest =>
    some (.atom (infinite false), rest)
  | '-' :: 'I' :: 'n' :: 'f' :: 'i' :: 'n' :: 'i' :: 't' :: 'y' :: rest =>
    some (.atom (infinite true), rest)
  | '-' :: rest => (scanNumber true rest).map fun (v, rest) => (.atom v, rest)
  | cs => (scanNumber false cs).map fun (v, rest) => (.atom v, rest)

end Json
end Hyperslab
