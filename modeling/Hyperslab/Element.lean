import Hyperslab.Number.Binary

/-!
# Element types, and the codes their elements are stored as

The code of a whole number is the number, of a truth value zero or one, and of a floating-point
number its bit pattern.  `convert` carries a code of one type over to another: between whole
numbers it keeps the lowest bits, into a floating-point type it rounds once, from a floating-point
number into a whole one it goes toward zero, and a truth value is whether the element differs from
zero.
-/
namespace Hyperslab

inductive Width where
  | w8
  | w16
  | w32
  | w64
  deriving DecidableEq, Repr

namespace Width

def bits : Width → Nat
  | w8 => 8
  | w16 => 16
  | w32 => 32
  | w64 => 64

/-- The width of twice as many bits, if there is one. -/
def next? : Width → Option Width
  | w8 => some w16
  | w16 => some w32
  | w32 => some w64
  | w64 => none

def max (a b : Width) : Width := if a.bits < b.bits then b else a

end Width

inductive ElementType where
  | boolean
  | signed (w : Width)
  | unsigned (w : Width)
  | float32
  | float64
  /-- Anything that is not a number; its elements carry no code. -/
  | other
  deriving DecidableEq, Repr

namespace ElementType

def int64 : ElementType := signed .w64

def uint64 : ElementType := unsigned .w64

def all : List ElementType :=
  [boolean, signed .w8, signed .w16, signed .w32, signed .w64,
    unsigned .w8, unsigned .w16, unsigned .w32, unsigned .w64, float32, float64, other]

def name : ElementType → String
  | boolean => "bool"
  | signed w => "int" ++ toString w.bits
  | unsigned w => "uint" ++ toString w.bits
  | float32 => "float32"
  | float64 => "float64"
  | other => "object"

def ofName? (s : String) : Option ElementType := all.find? (·.name == s)

/-- Bytes of one element. -/
def itemSize : ElementType → Nat
  | boolean => 1
  | signed w | unsigned w => w.bits / 8
  | float32 => 4
  | float64 | other => 8

def isWhole : ElementType → Bool
  | signed _ | unsigned _ => true
  | _ => false

/-- Whether a type is unsigned and wider than eight bits.  Tensors only store the elements of such a
type: they do not add them, and no type unites it with another whole type. -/
def isStoredOnly : ElementType → Bool
  | unsigned w => w != .w8
  | _ => false

def format? : ElementType → Option Number.Format
  | float32 => some Number.binary32
  | float64 => some Number.binary64
  | _ => none

/-- The number that has the lowest bits of `n`. -/
def wrap : ElementType → Int → Int
  | signed w, n => Int.bmod n (Number.twoTo w.bits)
  | unsigned w, n => n % (Number.twoTo w.bits : Int)
  | _, n => n

/-- Whether a whole number can be stored without a change. -/
def inRange : ElementType → Int → Bool
  | signed w, n => -(Number.twoTo (w.bits - 1) : Int) ≤ n && n < (Number.twoTo (w.bits - 1) : Int)
  | unsigned w, n => 0 ≤ n && n < (Number.twoTo w.bits : Int)
  | _, _ => true

/-- Whether the element with this code is zero. -/
def isZero (t : ElementType) (code : Int) : Bool :=
  match t.format? with
  | some f => (f.read code.toNat).isZero
  | none => code == 0

/-- The code of a whole number. -/
def ofInt (t : ElementType) (n : Int) : Int :=
  match t.format? with
  | some f => f.ofInt n
  | none => if t = boolean then (if n = 0 then 0 else 1) else t.wrap n

/-- Whether a whole number is too large for the 64-bit floating-point type. -/
def exceedsFloat (n : Int) : Bool := Number.binary64.ofInt n.natAbs == Number.binary64.infinity

/-- The type of the whole number from which a floating-point number reaches a whole type. -/
def transit : ElementType → ElementType
  | unsigned .w64 => uint64
  | signed .w64 | unsigned .w32 => int64
  | _ => signed .w32

/-- The code of a floating-point number.  A number without a whole part in range, which includes
infinities and the pattern that is no number, becomes the least number on its way. -/
def ofReading (t : ElementType) (r : Number.Reading) : Int :=
  match t.format? with
  | some f => f.write r
  | none =>
    if t = boolean then (if r.isZero then 0 else 1)
    else
      let least : Int := if t.transit = signed .w32 then -(Number.twoTo 31) else -(Number.twoTo 63)
      let n := r.truncate?.getD least
      t.wrap (if t.transit.inRange n ∨ int64.inRange n ∧ t.transit = uint64 then n else least)

/-- The code in `target` of an element that has code `code` in `source`. -/
def convert (source target : ElementType) (code : Int) : Int :=
  if source = target then code
  else match source.format? with
    | some f => target.ofReading (f.read code.toNat)
    | none => target.ofInt code

/-- The narrowest type that holds the elements of both, where there is one; a 64-bit unsigned type
and a signed one meet in a floating-point type. -/
def promote : ElementType → ElementType → ElementType
  | other, _ | _, other => other
  | boolean, t | t, boolean => t
  | float64, _ | _, float64 => float64
  | float32, float32 => float32
  | float32, signed w | float32, unsigned w | signed w, float32 | unsigned w, float32 =>
    if w.bits ≤ 16 then float32 else float64
  | signed a, signed b => signed (a.max b)
  | unsigned a, unsigned b => unsigned (a.max b)
  | signed a, unsigned b | unsigned b, signed a =>
    if b.bits < a.bits then signed a
    else match b.next? with
      | some w => signed w
      | none => float64

/-- The pattern of the sum of a number and one. -/
def floatNext (f : Number.Format) (bits : Nat) : Nat :=
  match f.read bits with
  | .finite negative m p =>
    let den := Number.twoTo (-p).toNat
    let sum : Int := (if negative then -1 else 1) * (m * Number.twoTo p.toNat : Nat) + (den : Nat)
    f.withSign (sum < 0) (f.roundQuotient sum.natAbs den)
  | _ => bits

/-- The type of the sum of an element and one, and the code of the sum.  A whole number wraps
around, and a truth value counts as a 64-bit number. -/
def next (t : ElementType) : ElementType × (Int → Int) :=
  match t.format? with
  | some f => (t, fun code => floatNext f code.toNat)
  | none =>
    let sumType := if t = boolean then int64 else t
    (sumType, fun code => sumType.wrap (code + 1))

/-- The kinds of number in the order in which one may stand for another. -/
def rank : ElementType → Nat
  | boolean => 0
  | unsigned _ => 1
  | signed _ => 2
  | float32 | float64 => 3
  | other => 4

/-- Whether elements may be copied into another type without changing their kind of number. -/
def sameKind (source target : ElementType) : Bool := source.rank ≤ target.rank

end ElementType

end Hyperslab
