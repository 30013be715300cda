import Hyperslab.Shape

/-!
# Traffic

How many elements and bytes a call moves.  The counts are taken from extents as they are given, so
that they make sense of any whole numbers.
-/
namespace Hyperslab

structure Traffic where
  /-- The elements selected. -/
  elements : Int
  /-- The elements of the array that they are selected from. -/
  inputElements : Int
  bytesIn : Int
  bytesOut : Int
  deriving DecidableEq, Repr

namespace Traffic

def bytes (t : Traffic) : Int := t.bytesIn + t.bytesOut

/-- The number of elements for extents. -/
def count (extents : List Int) : Int := extents.foldr (· * ·) 1

/-- The traffic of a call that selects some elements out of an input.  Every selected element is
read and written once; a call that fills its result with zeros first writes every element of it as
well. -/
def ofCounts (input selected itemSize : Int) (fills : Bool) : Traffic where
  elements := selected
  inputElements := input
  bytesIn := selected * itemSize
  bytesOut := ((if fills then input else 0) + selected) * itemSize

def ofShapes (input selected : Shape) (itemSize : Nat) (fills : Bool) : Traffic :=
  ofCounts input.size selected.size itemSize fills

end Traffic

end Hyperslab
