import Hyperslab.Resolution

/-!
# Routes of an extraction

The cheapest route that fits is taken: the array as it is, a run of its first axis, whole rows of a
plane, or the strided walk that fits every selection.
-/
namespace Hyperslab

inductive Route where
  | identity
  /-- A run of the first axis, which is one run of the memory of a contiguous array. -/
  | lead
  /-- Rows of an array with two axes, each copied as a run. -/
  | rows
  /-- The strided walk. -/
  | walk
  deriving DecidableEq, Repr

namespace Route

def name : Route → String
  | identity => "identity"
  | lead => "contiguous_lead"
  | rows => "simple_2d"
  | walk => "generic"

/-- The route for a selection, given whether the array is contiguous and whether rows can be copied
at all. -/
def choose (r : Resolution) (contiguous rowCopies : Bool) : Route :=
  let rank := r.axes.length
  if r.isIdentity then identity
  else if r.isLead && contiguous && rank != 0 then lead
  else if rowCopies && r.isSimple && r.size != 0 && rank == 2 && r.finalShape.length == 2 then rows
  else walk

end Route

end Hyperslab
