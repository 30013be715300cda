import Hyperslab.Text.Printable

/-!
# Quoted texts

A text is quoted in single quotes, and in double quotes when it holds a single quote and no double
one.  The quote in use and the backslash are escaped by a backslash; a character that is not
printable is written by name or by number.
-/
namespace Hyperslab
namespace Text

def hexDigit (n : Nat) : Char :=
  if n < 10 then Char.ofNat (48 + n) else Char.ofNat (87 + n)

/-- The last `width` digits of `n` in base sixteen, in small letters. -/
def hex : Nat → Nat → List Char
  | 0, _ => []
  | width + 1, n => hex width (n / 16) ++ [hexDigit (n % 16)]

def escape (quote c : Char) : List Char :=
  let n := c.toNat
  if c = quote || c = '\\' then ['\\', c]
  else if c = '\n' then ['\\', 'n']
  else if c = '\r' then ['\\', 'r']
  else if c = '\t' then ['\\', 't']
  else if isPrintable c then [c]
  else if n < 0x100 then '\\' :: 'x' :: hex 2 n
  else if n < 0x10000 then '\\' :: 'u' :: hex 4 n
  else '\\' :: 'U' :: hex 8 n

def singleQuote : Char := Char.ofNat 39

def doubleQuote : Char := Char.ofNat 34

def quote (cs : List Char) : List Char :=
  let q := if cs.contains singleQuote && !cs.contains doubleQuote then doubleQuote else singleQuote
  q :: cs.flatMap (escape q) ++ [q]

end Text
end Hyperslab
