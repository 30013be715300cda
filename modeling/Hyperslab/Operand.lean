import Hyperslab.Literal.Host
import Hyperslab.Literal.Tensor
import Hyperslab.View

/-!
# Operands: arrays, and values that can be read as arrays

An array of the kind that is wanted is taken as it is, and one of the other kind is seen through a
window of the kind that is wanted, onto the same cells.  A value becomes a new array.
-/
namespace Hyperslab

/-- The elements of an array as they stand. -/
def View.snapshot (v : View) (s : Store) : Snapshot :=
  { kind := v.kind, elements := ⟨v.type, v.shape, v.codes s⟩, tracked := v.tracking != .untracked }

inductive Operand where
  | array (v : View)
  | value (v : Value)

namespace Operand

/-- The name of an operand's kind. -/
def typeName : Operand → String
  | array v => v.kind.typeName
  | value v => v.typeName

def view? : Operand → Option View
  | array v => some v
  | value _ => none

/-- The operand as a value. -/
def toValue (s : Store) : Operand → Value
  | array v => .array (v.snapshot s)
  | value v => v

def isTensor : Operand → Bool
  | array v => v.kind == .tensor
  | value _ => false

end Operand

namespace View

/-- Whether the elements of some axis are walked backwards. -/
def isReversed (v : View) : Bool := v.layout.dims.any (·.stride < 0)

/-- The same cells as an array of a given kind.  A tensor through which gradients are tracked cannot
be read as a host array, and a tensor has numbers and is not reversed.  The storage of a tensor that
is made of a host array starts at the first element. -/
def ofKind (v : View) (kind : ArrayKind) : Except Fault View :=
  match v.kind, kind with
  | .tensor, .host =>
    if v.tracking = .untracked then .ok { v with kind := .host, writeable := true }
    else .error .trackedReading
  | .host, .tensor =>
    if v.type = .other then .error .noTensorType
    else if v.isReversed then .error .reversedLayout
    else .ok { v with kind := .tensor, writeable := true, start := v.layout.offset }
  | _, _ => .ok v

end View

namespace Literal

/-- The literal of a value in the array of a given kind. -/
def ofValue (kind : ArrayKind) (target : Option ElementType) (v : Value) : Except Fault Literal :=
  match kind with
  | .host => Host.ofValue target v
  | .tensor => Tensor.ofValue target v

end Literal

namespace Operand

/-- A new array with the elements of a value. -/
def created (kind : ArrayKind) (target : Option ElementType) (v : Value) : Memory View := do
  let l ← ofExcept (Literal.ofValue kind target v)
  View.create kind l.type (.rowMajor l.shape) l.codes

/-- The operand as an array of a given kind. -/
def toView (kind : ArrayKind) : Operand → Memory View
  | array v => ofExcept (v.ofKind kind)
  | value v => created kind none v

/-- The operand as an array of a given kind with elements of a given type. -/
def toViewOf (kind : ArrayKind) (type : ElementType) : Operand → Memory View
  | array v => do (← ofExcept (v.ofKind kind)).ofType type
  | value v => created kind (some type) v

end Operand

end Hyperslab
