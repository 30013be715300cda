import Hyperslab.Number.Binary
import Hyperslab.Text.Numeral
import Hyperslab.Text.Case

/-!
# Decimal texts of binary numbers

`shortest` finds the fewest digits that are nearer to a number than to its neighbours, and of those
the nearest.  A text is read by rounding its exact value once.
-/
namespace Hyperslab
namespace Number

/-- A positive number in decimal: `digits * 10 ^ power`. -/
structure Decimal where
  digits : Nat
  power : Int
  deriving DecidableEq, Repr

def digitText (n : Nat) : List Char := (Nat.toDigits 10 n)

namespace Decimal

/-- The same number with no zero at the end of its digits; `count` bounds the zeros removed. -/
def dropZeros : Nat → Decimal → Decimal
  | 0, d => d
  | count + 1, d =>
    if d.digits % 10 = 0 && d.digits ≠ 0 then dropZeros count ⟨d.digits / 10, d.power + 1⟩ else d

/-- The pattern nearest to a decimal number.  Powers far outside the range of the format are
settled without computing them. -/
def round (f : Format) (d : Decimal) : Nat :=
  let top : Int := (digitText d.digits).length + d.power
  if d.digits = 0 || top < -400 then 0
  else if 400 < top then f.infinity
  else f.roundQuotient (d.digits * tenTo d.power.toNat) (tenTo (-d.power).toNat)

end Decimal

/-- The largest `k` with `10 ^ k ≤ num / den`, for positive `num` and `den`.  The logarithm to base
two gives it up to one step either way. -/
def floorLog10 (num den : Nat) : Int :=
  let guess := Int.fdiv (floorLog2 num den * 30103) 100000
  let reaches (k : Int) : Bool := den * tenTo k.toNat ≤ num * tenTo (-k).toNat
  if reaches (guess + 1) then guess + 1 else if reaches guess then guess else guess - 1

/-- The numbers that a pattern stands for when it is read back, in quarters of its last place:
from `low / den` to `high / den`, with `value / den` the number itself. -/
structure Neighbourhood where
  low : Nat
  value : Nat
  high : Nat
  den : Nat
  closed : Bool

/-- Half-way to the neighbours of `m * 2 ^ p`.  The neighbour below a power of two is nearer by
half, unless the power is the least one; an even significand wins the ends. -/
def neighbourhood (f : Format) (m : Nat) (p : Int) : Neighbourhood :=
  let scale := twoTo (p - 2).toNat
  let below := if m = twoTo f.fraction && f.minPower < p then 1 else 2
  ⟨(4 * m - below) * scale, 4 * m * scale, (4 * m + 2) * scale, twoTo (2 - p).toNat, m % 2 = 0⟩

namespace Neighbourhood

/-- Whether `c * 10 ^ u` lies in the neighbourhood. -/
def holds (n : Neighbourhood) (u : Int) (c : Nat) : Bool :=
  let x := c * tenTo u.toNat * n.den
  let down := tenTo (-u).toNat
  if n.closed then n.low * down ≤ x && x ≤ n.high * down
  else n.low * down < x && x < n.high * down

/-- The multiple of `10 ^ u` in the neighbourhood that is nearest to the value, if one of the two
next to the value lies there. -/
def nearest? (n : Neighbourhood) (u : Int) : Option Nat :=
  let num := n.value * tenTo (-u).toNat
  let den := n.den * tenTo u.toNat
  let a := num / den
  match n.holds u a, n.holds u (a + 1) with
  | true, true => some (roundDiv num den)
  | true, false => some a
  | false, true => some (a + 1)
  | false, false => none

/-- Tries grids from coarse to fine: `count` more, the next with unit `10 ^ u`. -/
def search (n : Neighbourhood) : Nat → Int → Decimal
  | 0, u => ⟨n.value * tenTo (-u).toNat / (n.den * tenTo u.toNat), u⟩
  | count + 1, u =>
    match n.nearest? u with
    | some c => ⟨c, u⟩
    | none => search n count (u - 1)

end Neighbourhood

/-- The fewest digits that read back as `m * 2 ^ p`, for a positive `m`. -/
def shortest (f : Format) (m : Nat) (p : Int) : Decimal :=
  let n := neighbourhood f m p
  (n.search 17 (floorLog10 n.value n.den)).dropZeros 20

/-- How numbers are written out: the point stands inside the digits or next to them as long as the
position of the first digit is above `low` and at most `high`, and an exponent has at least
`exponentDigits` digits. -/
structure Style where
  low : Int
  high : Int
  exponentDigits : Nat
  nan : String
  infinity : String

/-- Plain numbers: positional from a ten-thousandth up to sixteen digits. -/
def plain : Style := ⟨-4, 16, 2, "nan", "inf"⟩

/-- Numbers of a data file. -/
def data : Style := ⟨-4, 16, 2, "NaN", "Infinity"⟩

namespace Style

def exponentText (s : Style) (e : Int) : List Char :=
  let ds := digitText e.natAbs
  (if e < 0 then '-' else '+') :: (List.replicate (s.exponentDigits - ds.length) '0' ++ ds)

/-- A positive decimal number. -/
def decimal (s : Style) (d : Decimal) : List Char :=
  let ds := digitText d.digits
  let point : Int := ds.length + d.power
  if s.low < point && point ≤ s.high then
    if point ≤ 0 then '0' :: '.' :: (List.replicate (-point).toNat '0' ++ ds)
    else if (ds.length : Int) ≤ point then
      ds ++ List.replicate (point.toNat - ds.length) '0' ++ ['.', '0']
    else ds.take point.toNat ++ '.' :: ds.drop point.toNat
  else
    let rest := ds.drop 1
    ds.take 1 ++ (if rest.isEmpty then [] else '.' :: rest) ++ 'e' :: s.exponentText (point - 1)

def write (s : Style) (f : Format) (bits : Nat) : String :=
  match f.read bits with
  | .nan => s.nan
  | .infinite negative => if negative then "-" ++ s.infinity else s.infinity
  | .finite negative m p =>
    let body := if m = 0 then ['0', '.', '0'] else s.decimal (shortest f m p)
    String.ofList (if negative then '-' :: body else body)

end Style

/-- Digits with an optional point among them: their value without the point, and how many stand
after it. -/
def pointed? (cs : List Char) : Option (Nat × Nat) :=
  let whole := cs.takeWhile (· != '.')
  match cs.dropWhile (· != '.') with
  | [] => (Text.digits? whole).map fun n => (n, 0)
  | _ :: places =>
    let count := (places.filter (· != '_')).length
    match whole, places with
    | [], [] => none
    | [], _ => (Text.digits? places).map fun n => (n, count)
    | _, [] => (Text.digits? whole).map fun n => (n, 0)
    | _, _ => do
      let a ← Text.digits? whole
      let b ← Text.digits? places
      return (a * tenTo count + b, count)

/-- A decimal number without its sign, with an optional exponent. -/
def unsigned? (cs : List Char) : Option Decimal := do
  let isMark (c : Char) : Bool := c == 'e' || c == 'E'
  let (digits, places) ← pointed? (cs.takeWhile (!isMark ·))
  match cs.dropWhile (!isMark ·) with
  | [] => return ⟨digits, -(places : Int)⟩
  | _ :: exponent => return ⟨digits, (← Text.signed? exponent) - places⟩

/-- The pattern that a text stands for: a decimal number, an infinity or no number, with blanks
around it. -/
def float? (f : Format) (text : List Char) : Option Nat :=
  let cs := Text.trimWhile Text.isNumeralBlank text
  let (negative, body) := match cs with
    | '-' :: rest => (true, rest)
    | '+' :: rest => (false, rest)
    | _ => (false, cs)
  let word := String.ofList (Text.lower body)
  if word = "inf" || word = "infinity" then some (f.withSign negative f.infinity)
  else if word = "nan" then some f.quietNan
  else (unsigned? body).map fun d => f.withSign negative (d.round f)

end Number
end Hyperslab
