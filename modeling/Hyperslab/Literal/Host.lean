import Hyperslab.Literal
import Hyperslab.Value

/-!
# Host arrays from values

Lists, tuples and arrays nest, and all items of a sequence must have one shape.  The element type is
the narrowest that holds every element, unless a type is asked for; then each element is converted
on its own.  An element of an array is carried over as it is between arrays, and anything else that
is out of range of a whole type is refused, but for single elements that arrive in an unsigned type.
-/
namespace Hyperslab
namespace Literal
namespace Host

/-! ## Shape and type -/

mutual

/-- The shape of a value, if all items of each sequence in it have one shape. -/
def shape? : Value → Option Shape
  | .list items | .tuple items =>
    match shapes? items with
    | none => none
    | some [] => some [0]
    | some (s :: rest) => if rest.all (· == s) then some ((rest.length + 1) :: s) else none
  | .array a => some a.shape
  | _ => some []

def shapes? : List Value → Option (List Shape)
  | [] => some []
  | v :: rest =>
    match shape? v, shapes? rest with
    | some s, some more => some (s :: more)
    | _, _ => none

end

mutual

/-- Whether a tensor through which gradients are tracked is among the items. -/
def isTracked : Value → Bool
  | .list items | .tuple items => anyTracked items
  | .array a => a.tracked
  | _ => false

def anyTracked : List Value → Bool
  | [] => false
  | v :: rest => isTracked v || anyTracked rest

end

/-- The type that a single value asks for. -/
def leafType : Value → ElementType
  | .boolean _ => .boolean
  | .whole n =>
    if ElementType.int64.inRange n then .int64
    else if ElementType.uint64.inRange n then .uint64
    else .other
  | .float _ => .float64
  | .scalar t _ => t
  | _ => .other

mutual

/-- The types that the parts of a value ask for.  An array asks for its type even if it has no
elements. -/
def types : Value → List ElementType
  | .list items | .tuple items => allTypes items
  | .array a => [a.type]
  | v => [leafType v]

def allTypes : List Value → List ElementType
  | [] => []
  | v :: rest => types v ++ allTypes rest

end

/-- The type that holds all elements; without any it is a floating-point type. -/
def commonType : List ElementType → ElementType
  | [] => .float64
  | t :: rest => rest.foldl ElementType.promote t

/-! ## Elements -/

/-- A whole number that has to be in range. -/
def inRange (t : ElementType) (n : Int) : Except Fault Int :=
  if t.inRange n then .ok n else .error .tooLarge

/-- The code of a value in a floating-point type.  The null value is not a number. -/
def floatCode (t : ElementType) : Value → Except Fault Int
  | .null => .ok (t.ofFloat Number.binary64.quietNan)
  | v => do return t.ofFloat (← v.toFloat)

/-- The code of a value as an element of a given type.  An element of another type is carried over
as between arrays, but for one that arrives in a signed type. -/
def code (t : ElementType) (v : Value) : Except Fault Int :=
  match t, v with
  | .other, _ => .ok 0
  | .boolean, v => do return if ← v.truth then 1 else 0
  | .signed w, v => do inRange (.signed w) (← v.toWhole)
  | t, .scalar s c => .ok (s.convert t c)
  | .unsigned w, v => do inRange (.unsigned w) (← v.toWhole)
  | t, v => floatCode t v

mutual

/-- The codes of the elements of a value in row-major order.  A host array is carried over, and so
is a tensor with axes; a tensor without axes is a single value. -/
def codes (t : ElementType) : Value → Except Fault (List Int)
  | .list items | .tuple items => allCodes t items
  | .array a =>
    if a.kind = .tensor ∧ a.shape = [] then do return [← code t (.array a)]
    else .ok (a.elements.codes.map (a.type.convert t))
  | v => do return [← code t v]

def allCodes (t : ElementType) : List Value → Except Fault (List Int)
  | [] => .ok []
  | v :: rest => do
    let first ← codes t v
    return first ++ (← allCodes t rest)

end

/-- The literal of a value, with elements of the given type if there is one. -/
def ofValue (target : Option ElementType) (v : Value) : Except Fault Literal := do
  if isTracked v then throw .trackedReading
  match shape? v with
  | none => throw .raggedNesting
  | some s =>
    if maxAxes < s.length then throw .tooManyAxes
    let t := target.getD (commonType (types v))
    return ⟨t, s, ← codes t v⟩

end Host
end Literal
end Hyperslab
