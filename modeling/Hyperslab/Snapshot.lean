import Hyperslab.ArrayKind
import Hyperslab.ArrayText.Tensor
import Hyperslab.Fault

/-!
# Arrays as they stand at one moment

A snapshot has the elements of an array and none of its cells.  Where a single number is expected,
an array may stand for its only element: a host array if it has no axes, and a tensor with any
number of them.
-/
namespace Hyperslab

structure Snapshot where
  kind : ArrayKind
  elements : Literal
  /-- Whether gradients are tracked through the array. -/
  tracked : Bool := false
  deriving DecidableEq, Repr

namespace Snapshot

def type (a : Snapshot) : ElementType := a.elements.type

def shape (a : Snapshot) : Shape := a.elements.shape

def describe (a : Snapshot) : String :=
  match a.kind with
  | .host => ArrayText.Host.describe a.elements
  | .tensor => ArrayText.Tensor.describe a.elements a.tracked

/-- The elements alone.  Those of a tensor are never shown alone. -/
def display (a : Snapshot) : String :=
  match a.kind with
  | .host => ArrayText.text {} a.type a.shape a.elements.codes
  | .tensor => a.describe

/-- The parts along the first axis; an array without axes has none. -/
def items? (a : Snapshot) : Option (List Snapshot) :=
  a.elements.items?.map fun parts => parts.map fun l => { a with elements := l }

/-- Whether the only element differs from zero. -/
def truth (a : Snapshot) : Except Fault Bool :=
  match a.elements.single? with
  | some code => .ok (!a.type.isZero code)
  | none => .error (.noTruth (a.kind == .tensor))

/-- The code of the only element, where a number is expected. -/
def number (a : Snapshot) : Except Fault Int :=
  match a.kind, a.elements.single? with
  | .host, some code => if a.shape = [] then .ok code else .error .noWholeReading
  | .host, none => .error .noWholeReading
  | .tensor, some code => .ok code
  | .tensor, none => .error .severalElements

/-- The whole number that the array is as it stands, if it is one.  A truth value in a tensor counts
as one, and the number in a tensor must fit in 64 bits with a sign. -/
def whole? (a : Snapshot) : Except Fault (Option Int) :=
  match a.kind, a.elements.single? with
  | .host, some code => .ok (if a.shape = [] ∧ a.type.isWhole then some code else none)
  | .tensor, some code =>
    if a.type.isWhole ∨ a.type = .boolean then
      if ElementType.int64.inRange code then .ok (some code) else .error .cellRange
    else .ok none
  | _, none => .ok none

/-- Each element plus one. -/
def next (a : Snapshot) : Except Fault Snapshot :=
  if a.kind = .tensor ∧ a.type.isStoredOnly then .error .noSum
  else
    let (type, sum) := a.type.next
    .ok { a with elements := ⟨type, a.shape, a.elements.codes.map sum⟩ }

end Snapshot

end Hyperslab
