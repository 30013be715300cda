import Hyperslab.Fault

/-!
# Intervals of indices

An interval is walked from `start` in steps of `step` as long as it has not reached `stop`.  Bounds
that are given for an axis are clamped before the walk: a forward walk stays between zero and the
extent, a backward walk between one before the first index and the last one.
-/
namespace Hyperslab

structure Interval where
  start : Int
  stop : Int
  step : Int
  deriving DecidableEq, Repr

/-- The two ends of an interval. -/
inductive Bound where
  | first
  | last
  deriving DecidableEq, Repr

namespace Interval

/-- The whole of an axis in steps of one. -/
def whole (extent : Nat) : Interval := ⟨0, extent, 1⟩

/-- The single index `i`. -/
def single (i : Int) : Interval := ⟨i, i + 1, 1⟩

/-- The number of indices visited: none when the walk leads away from `stop`, else the distance
divided by the step and rounded up. -/
def size (i : Interval) : Nat :=
  let distance := i.stop - i.start
  if distance = 0 ∨ decide (distance < 0) ≠ decide (i.step < 0) then 0
  else (Int.fdiv distance i.step + (if Int.fmod distance i.step = 0 then 0 else 1)).toNat

/-- The size of an interval whose step may be zero; such a walk never gets ahead. -/
def size? (i : Interval) : Except Fault Nat :=
  if i.step = 0 ∧ i.start < i.stop then .error .zeroStep else .ok i.size

/-- The lowest and the highest value that a bound may take. -/
def limits (extent step : Int) : Int × Int :=
  if 0 < step then (0, extent) else (-1, extent - 1)

/-- A bound of an axis as a number.  A missing bound is the limit from which the walk comes or to
which it goes, and a negative one counts from the end. -/
def clamp (extent step : Int) (b : Bound) (value : Option Int) : Int :=
  let (low, high) := limits extent step
  match value with
  | none => if (0 < step) = (b = .first) then low else high
  | some v => max low (min (if v < 0 then extent + v else v) high)

/-- The interval of an axis with the given bounds. -/
def ofBounds (extent : Nat) (start stop : Option Int) (step : Int) : Interval :=
  ⟨clamp extent step .first start, clamp extent step .last stop, step⟩

/-- Whether the interval is the whole of an axis in steps of one. -/
def isWhole (i : Interval) (extent : Nat) : Bool := i.step = 1 && i.start = 0 && i.stop = extent

end Interval

end Hyperslab
