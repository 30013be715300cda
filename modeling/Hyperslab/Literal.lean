import Hyperslab.Element
import Hyperslab.Shape

/-!
# Arrays written out

A literal is an array by its elements alone: an element type, a shape, and the codes of the elements
in row-major order.
-/
namespace Hyperslab

structure Literal where
  type : ElementType
  shape : Shape
  codes : List Int
  deriving DecidableEq, Repr

namespace Literal

/-- The code of the only element. -/
def single? (l : Literal) : Option Int :=
  match l.codes with
  | [code] => some code
  | _ => none

/-- The items along the first axis; a literal without axes has none. -/
def items? (l : Literal) : Option (List Literal) :=
  match l.shape with
  | [] => none
  | n :: rest => some ((List.range n).map fun (i : Nat) =>
    ⟨l.type, rest, (l.codes.drop (i * Shape.size rest)).take (Shape.size rest)⟩)

end Literal

namespace ElementType

/-- The code of a floating-point number that arrives with 64 bits. -/
def ofFloat (t : ElementType) (bits : Nat) : Int := float64.convert t bits

end ElementType

end Hyperslab
