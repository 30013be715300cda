/-!
# Shapes

A shape is the list of the extents of an array, one for each axis.
-/
namespace Hyperslab

abbrev Shape := List Nat

namespace Shape

/-- The number of elements; one for the empty shape. -/
def size (s : Shape) : Nat := s.foldr (· * ·) 1

/-- The extents between square brackets, with nothing but commas between them. -/
def text (s : Shape) : String := "[" ++ ",".intercalate (s.map toString) ++ "]"

end Shape

/-- Parts between parentheses; a single part keeps a comma so that it is not a grouping. -/
def tupleText : List String → String
  | [] => "()"
  | [part] => "(" ++ part ++ ",)"
  | parts => "(" ++ ", ".intercalate parts ++ ")"

end Hyperslab
