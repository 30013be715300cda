import Hyperslab.Number.Places

/-!
# Amounts with a unit

An amount is shown with two decimal places, in thousands, millions, thousand millions or million
millions when it reaches one.
-/
namespace Hyperslab
namespace Number

/-- Scales of an amount from large to small, each with its letter. -/
def scales : List (Nat × String) :=
  [(tenTo 12, "T"), (tenTo 9, "G"), (tenTo 6, "M"), (tenTo 3, "K")]

/-- Whether a number is at least `n`. -/
def Reading.reaches (r : Reading) (n : Nat) : Bool :=
  match r with
  | .nan => false
  | .infinite negative => !negative
  | .finite negative m p => !negative && n * twoTo (-p).toNat ≤ m * twoTo p.toNat

/-- A 64-bit number divided by a whole one. -/
def quotient (bits n : Nat) : Nat :=
  match binary64.read bits with
  | .finite negative m p =>
    binary64.withSign negative
      (binary64.roundQuotient (m * twoTo p.toNat) (n * twoTo (-p).toNat))
  | _ => bits

/-- An amount, given as a 64-bit pattern, with its unit in front. -/
def metric (unit : String) (bits : Nat) : String :=
  unit ++ "=" ++
    match scales.find? fun s => (binary64.read bits).reaches s.1 with
    | some (n, letter) => fixedText 2 binary64 (quotient bits n) ++ letter
    | none => fixedText 2 binary64 bits

end Number
end Hyperslab
