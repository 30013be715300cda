import Hyperslab.Device
import Hyperslab.Operand

/-!
# Back ends: what carries out a call

There is one for each kind of array.  A call names a back end or leaves the choice to its operands.
-/
namespace Hyperslab

/-- What a call asks for. -/
inductive BackendChoice where
  /-- The back end of the operands. -/
  | auto
  | fixed (kind : ArrayKind)
  deriving DecidableEq, Repr

inductive Backend where
  | host
  | tensor (device : Device)
  deriving DecidableEq, Repr

def ArrayKind.backendName : ArrayKind → String
  | host => "numpy"
  | tensor => "torch"

namespace BackendChoice

def name : BackendChoice → String
  | auto => "auto"
  | fixed kind => kind.backendName

def ofName? (s : String) : Option BackendChoice :=
  [auto, fixed .host, fixed .tensor].find? (·.name == s)

end BackendChoice

namespace Backend

def kind : Backend → ArrayKind
  | host => .host
  | tensor _ => .tensor

/-- Whether rows can be copied as runs. -/
def rowCopies (b : Backend) : Bool := b.kind == .host

/-- The back end in words, with its device. -/
def describe : Backend → String
  | host => "numpy:cpu"
  | tensor device => "torch:" ++ device.name

/-- The back end for operands, on a device.  Tensors are never taken to the host for a call. -/
def choose (c : BackendChoice) (device : String) (samples : List Operand) : Except Fault Backend :=
  let kind := match c with
    | .fixed kind => kind
    | .auto => if samples.any Operand.isTensor then .tensor else .host
  match kind with
  | .host =>
    if samples.any Operand.isTensor then .error .tensorOnHost
    else if device = "auto" || device = "cpu" then .ok host
    else .error (.deviceOnHost device)
  | .tensor => do return tensor (← Device.ofText device)

/-- The back end with a given name. -/
def select (name device : String) (samples : List Operand) : Except Fault Backend :=
  match BackendChoice.ofName? name with
  | some c => choose c device samples
  | none => .error (.unknownBackend name)

/-- The target of a write must be a writeable array of the back end's own kind, and no leaf through
which gradients are tracked. -/
def target (b : Backend) : Operand → Except Fault View
  | .array v =>
    if v.kind ≠ b.kind then .error (notArray (.array v))
    else if v.kind = .host ∧ ¬ v.writeable then .error .targetReadOnly
    else if v.tracking = .leaf then .error .targetTracked
    else .ok v
  | o => .error (notArray o)
where
  notArray (o : Operand) : Fault :=
    .targetNotArray (match b.kind with
      | .host => "numpy.ndarray"
      | .tensor => "torch.Tensor") o.typeName

end Backend

end Hyperslab
