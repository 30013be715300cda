import Hyperslab.Number.Power

/-!
# Binary floating-point numbers as bit patterns

A pattern is a natural number and is read in exact arithmetic: a finite number is a significand
times a power of two.  Writing rounds a quotient of natural numbers to the nearest pattern, and a
quotient half-way between two patterns to the even one.  Nothing here uses machine arithmetic on
floating-point numbers, so every conversion is a function on natural numbers.
-/
namespace Hyperslab
namespace Number

/-- The widths of the fraction field and of the exponent field; one sign bit lies above them. -/
structure Format where
  fraction : Nat
  exponent : Nat
  deriving DecidableEq, Repr

def binary32 : Format := ⟨23, 8⟩

def binary64 : Format := ⟨52, 11⟩

/-- What a pattern stands for; a finite number is `significand * 2 ^ power`, with its sign. -/
inductive Reading where
  | nan
  | infinite (negative : Bool)
  | finite (negative : Bool) (significand : Nat) (power : Int)
  deriving DecidableEq, Repr

/-- `num / den` rounded to the nearest whole number, a half to the even neighbour. -/
def roundDiv (num den : Nat) : Nat :=
  let d := num / den
  let r := num % den
  if 2 * r < den then d else if den < 2 * r then d + 1 else d + d % 2

/-- The largest `g` with `2 ^ g ≤ num / den`, for positive `num` and `den`. -/
def floorLog2 (num den : Nat) : Int :=
  let g := (num.log2 : Int) - den.log2
  if den * twoTo g.toNat ≤ num * twoTo (-g).toNat then g else g - 1

namespace Format

/-- The power of two that the last fraction bit of the smallest numbers counts. -/
def minPower (f : Format) : Int := 2 - (twoTo (f.exponent - 1) : Int) - f.fraction

def signBit (f : Format) : Nat := twoTo (f.fraction + f.exponent)

def infinity (f : Format) : Nat := (twoTo f.exponent - 1) * twoTo f.fraction

def quietNan (f : Format) : Nat := f.infinity + twoTo (f.fraction - 1)

def read (f : Format) (bits : Nat) : Reading :=
  let negative := decide (f.signBit ≤ bits)
  let magnitude := bits % f.signBit
  let field := magnitude / twoTo f.fraction
  let rest := magnitude % twoTo f.fraction
  if f.infinity < magnitude then .nan
  else if magnitude = f.infinity then .infinite negative
  else if field = 0 then .finite negative rest f.minPower
  else .finite negative (twoTo f.fraction + rest) (f.minPower + field - 1)

/-- The pattern nearest to `num / den`, without its sign bit.  A significand that is rounded up to
the next power of two carries into the exponent field, which is what the sum does. -/
def roundQuotient (f : Format) (num den : Nat) : Nat :=
  if num = 0 then 0
  else
    let power := max f.minPower (floorLog2 num den - f.fraction)
    let significand := roundDiv (num * twoTo (-power).toNat) (den * twoTo power.toNat)
    min f.infinity (significand + (power - f.minPower).toNat * twoTo f.fraction)

def withSign (f : Format) (negative : Bool) (magnitude : Nat) : Nat :=
  if negative then f.signBit + magnitude else magnitude

/-- The pattern nearest to what another pattern stands for. -/
def write (f : Format) : Reading → Nat
  | .nan => f.quietNan
  | .infinite negative => f.withSign negative f.infinity
  | .finite negative m p =>
    f.withSign negative (f.roundQuotient (m * twoTo p.toNat) (twoTo (-p).toNat))

def ofInt (f : Format) (n : Int) : Nat := f.withSign (n < 0) (f.roundQuotient n.natAbs 1)

/-- A pattern of one format in another. -/
def convert (f target : Format) (bits : Nat) : Nat := target.write (f.read bits)

end Format

namespace Reading

/-- The whole number next to a finite number in the direction of zero. -/
def truncate? : Reading → Option Int
  | .finite negative m p =>
    let magnitude : Int := ((m * twoTo p.toNat) / twoTo (-p).toNat : Nat)
    some (if negative then -magnitude else magnitude)
  | _ => none

def isZero : Reading → Bool
  | .finite _ m _ => m == 0
  | _ => false

end Reading

end Number
end Hyperslab
