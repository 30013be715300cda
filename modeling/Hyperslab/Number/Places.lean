import Hyperslab.Number.Decimal

/-!
# Decimal texts with a number of places

The exact value is rounded to a number of decimal places, a half to the even neighbour.  The places
are counted from the point, or from the first digit when the text has an exponent.
-/
namespace Hyperslab
namespace Number

/-- The digits of `n` with a point before the last `places` of them, and one at least before it. -/
def pointBefore (places n : Nat) : List Char :=
  let ds := digitText n
  let ds := List.replicate (places + 1 - ds.length) '0' ++ ds
  ds.take (ds.length - places) ++ '.' :: ds.drop (ds.length - places)

/-- A quotient with a fixed number of decimal places. -/
def fixed (places num den : Nat) : List Char :=
  pointBefore places (roundDiv (num * tenTo places) den)

/-- The first digit of a positive quotient with a number of digits after it, as one number, and the
power of ten that the first digit counts.  Rounding up to the next power of ten gives a first digit
of one again. -/
def leading (places num den : Nat) : Nat × Int :=
  let e := floorLog10 num den
  let u := e - places
  let n := roundDiv (num * tenTo (-u).toNat) (den * tenTo u.toNat)
  if n = tenTo (places + 1) then (tenTo places, e + 1) else (n, e)

/-- A quotient with one digit before the point, and an exponent of at least `width` digits. -/
def scientific (width places num den : Nat) : List Char :=
  let (n, e) := if num = 0 then (0, 0) else leading places num den
  pointBefore places n ++ 'e' :: Style.exponentText { plain with exponentDigits := width } e

/-- The text of a pattern whose size is written in a given way. -/
def signedText (size : Nat → Nat → List Char) (f : Format) (bits : Nat) : String :=
  match f.read bits with
  | .nan => plain.nan
  | .infinite negative => if negative then "-" ++ plain.infinity else plain.infinity
  | .finite negative m p =>
    let body := size (m * twoTo p.toNat) (twoTo (-p).toNat)
    String.ofList (if negative then '-' :: body else body)

/-- The exact value of a pattern with a fixed number of decimal places. -/
def fixedText (places : Nat) : Format → Nat → String := signedText (fixed places)

/-- The exact value of a pattern with a number of decimal places and an exponent. -/
def scientificText (places : Nat) : Format → Nat → String := signedText (scientific 2 places)

end Number
end Hyperslab
