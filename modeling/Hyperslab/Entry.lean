/-!
# Entries of a slicing specification

Each entry says what happens to one axis, except two: a new axis takes none, and an ellipsis takes
every axis that the others leave over.
-/
namespace Hyperslab

inductive Entry where
  /-- The whole axis in steps of one. -/
  | full
  /-- A single index; the axis is dropped from the result. -/
  | fixed (index : Int)
  /-- From `start` to before `stop`; a missing bound is the end of the axis on that side. -/
  | range (start stop : Option Int) (step : Int)
  /-- An axis of extent one that stands for no axis of the input. -/
  | newAxis
  | ellipsis
  deriving DecidableEq, Repr

namespace Entry

/-- Whether the entry takes exactly one axis of the input. -/
def takesAxis : Entry → Bool
  | full | fixed _ | range _ _ _ => true
  | newAxis | ellipsis => false

/-- The range from `start` to `stop`, in the one form that each such entry has: a range that is the
whole axis in steps of one is written `full`. -/
def ofRange (start stop : Option Int) (step : Int) : Entry :=
  if start.isNone && stop.isNone && step == 1 then full else range start stop step

end Entry

end Hyperslab
