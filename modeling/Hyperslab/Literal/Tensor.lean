import Hyperslab.Literal
import Hyperslab.Value

/-!
# Tensors from values

The shape is read off the first items alone, and every other item must fit it.  Floating-point
elements ask for the 32-bit type, and so does a sequence without elements.
-/
namespace Hyperslab
namespace Literal
namespace Tensor

/-! ## Shape and type -/

/-- The most sequences that may be nested. -/
def maxDepth : Nat := 128

/-- Extents up to the first that is zero. -/
def untilZero : Shape → Shape
  | [] => []
  | 0 :: _ => [0]
  | n :: rest => n :: untilZero rest

/-- The shape of the first items.  A text is a sequence of texts without end unless it is empty, a
host array is a sequence, and a tensor is a single value. -/
def firstShape : Value → Except Fault Shape
  | .list items | .tuple items =>
    match items with
    | [] => .ok [0]
    | v :: rest => do return (rest.length + 1) :: (← firstShape v)
  | .text s => if s.isEmpty then .ok [0] else .error .textNesting
  | .array a =>
    match a.kind, a.shape with
    | .tensor, _ => .ok []
    | .host, [] => .error .notNested
    | .host, s => .ok (untilZero s)
  | _ => .ok []

def shape (v : Value) : Except Fault Shape := do
  let s ← firstShape v
  if maxDepth < s.length then throw .tooManyAxes
  return s

/-- The type that holds elements of both; one of two floating-point types decides over a whole
one. -/
def promote (a b : ElementType) : Except Fault ElementType :=
  if a = b then .ok a
  else match a.format?, b.format? with
    | some _, none => .ok a
    | none, some _ => .ok b
    | some _, some _ => .ok (a.promote b)
    | none, none =>
      if a.isStoredOnly ∨ b.isStoredOnly then .error .noCommonType else .ok (a.promote b)

mutual

/-- The type that a value asks for. -/
def typeOf : Value → Except Fault ElementType
  | .boolean _ => .ok .boolean
  | .whole _ => .ok .int64
  | .float _ => .ok .float32
  | .scalar t _ => .ok t
  | .array a => .ok a.type
  | .text _ => .error .bareText
  | .list items | .tuple items =>
    match items with
    | [] => .ok .float32
    | v :: rest => do typeOfRest (← typeOf v) rest
  | _ => .error .noElementType

/-- The type that holds elements of a given type and those that values ask for. -/
def typeOfRest (t : ElementType) : List Value → Except Fault ElementType
  | [] => .ok t
  | v :: rest => do typeOfRest (← promote t (← typeOf v)) rest

end

/-! ## Elements -/

/-- Whether a number fits a whole type.  An unsigned type also takes the negative of each of its
numbers, which wraps around. -/
def fits (t : ElementType) (n : Int) : Bool :=
  match t with
  | .unsigned _ => t.inRange n.natAbs
  | _ => t.inRange n

/-- The code of a whole number, which must fit in 64 bits on its way. -/
def wholeCode (t : ElementType) (n : Int) : Except Fault Int :=
  if !ElementType.int64.inRange n then .error .wordRange
  else if fits t n then .ok (t.wrap n)
  else .error .cellRange

/-- The least and the greatest number of a whole type, as a floating-point number meets them: the
greatest number of 64 bits is rounded up. -/
def bounds : ElementType → Int × Int
  | .signed .w64 => (-(Number.twoTo 63), Number.twoTo 63)
  | .signed w => (-(Number.twoTo (w.bits - 1)), Number.twoTo (w.bits - 1) - 1)
  | .unsigned .w64 => (0, Number.twoTo 64)
  | .unsigned w => (0, Number.twoTo w.bits - 1)
  | _ => (0, 0)

/-- Whether a number lies between two whole ones, before its fraction is lost. -/
def liesIn (bounds : Int × Int) : Number.Reading → Bool
  | .finite negative m p =>
    let num : Int := m * Number.twoTo p.toNat
    let num := if negative then -num else num
    let den : Int := Number.twoTo (-p).toNat
    bounds.1 * den ≤ num && num ≤ bounds.2 * den
  | _ => false

/-- The code in a whole type of a floating-point number. -/
def floatCode (t : ElementType) (bits : Nat) : Except Fault Int :=
  if liesIn (bounds t) (Number.binary64.read bits) then .ok (t.ofFloat bits) else .error .cellRange

/-- The floating-point number, with 64 bits, that a value already is. -/
def float? : Value → Option Nat
  | .float bits => some bits
  | .scalar .float64 code => some code.toNat
  | _ => none

/-- A value as a whole number, where nothing else is taken. -/
def needWhole (v : Value) : Except Fault Int := do
  match ← v.whole? with
  | some n => return n
  | none => throw .noWholeReading

/-- The code of a value in the unsigned type of 64 bits, which takes nothing but plain numbers. -/
def wideCode : Value → Except Fault Int
  | .boolean b => .ok (if b then 1 else 0)
  | .whole n => if ElementType.uint64.inRange n then .ok n else .error .tooLarge
  | _ => .error .noWholeReading

/-- Whether a value counts as true in a tensor. -/
def truth (v : Value) : Except Fault Bool :=
  match v, float? v with
  | _, some bits => .ok !(Number.binary64.read bits).isZero
  | .scalar .boolean code, _ => .ok (code != 0)
  | v, _ => do return (← needWhole v) != 0

/-- The code of an element in a given type. -/
def code (t : ElementType) (v : Value) : Except Fault Int :=
  match t, v with
  | .other, _ | .float32, .text _ | .float64, .text _ => .error .noWholeReading
  | .float32, v | .float64, v => do return t.ofFloat (← v.toFloat)
  | .boolean, v => do return if ← truth v then 1 else 0
  | .unsigned .w64, v => wideCode v
  | t, v => match float? v with
    | some bits => floatCode t bits
    | none => do wholeCode t (← needWhole v)

/-- The codes of a value that has to have the given shape. -/
def codes (t : ElementType) : Shape → Value → Except Fault (List Int)
  | [], v => do return [← code t v]
  | n :: s, v =>
    match v.items? with
    | none => .error .notNested
    | some items =>
      if items.length = n then do return (← items.mapM (codes t s)).flatten
      else .error .raggedNesting

/-- The literal of a value, with elements of the given type if there is one. -/
def ofValue (target : Option ElementType) (v : Value) : Except Fault Literal :=
  match v with
  | .text _ => .error .bareText
  | v => do
    let s ← shape v
    let t ← match target with
      | some t => .ok t
      | none => typeOf v
    return ⟨t, s, ← if s.size = 0 then .ok [] else codes t s v⟩

end Tensor
end Literal
end Hyperslab
