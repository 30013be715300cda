/-!
# The two kinds of array

Host arrays may be read-only and may walk memory backwards; tensors do neither, but gradients may be
tracked through them.
-/
namespace Hyperslab

inductive ArrayKind where
  | host
  | tensor
  deriving DecidableEq, Repr

/-- The most axes that a host array has. -/
def maxAxes : Nat := 64

namespace ArrayKind

/-- The name of an array's kind. -/
def typeName : ArrayKind → String
  | host => "ndarray"
  | tensor => "Tensor"

end ArrayKind

end Hyperslab
