import Hyperslab.Dense
import Hyperslab.Interval

/-!
# Entries resolved against a shape

An ellipsis takes every axis that the other entries leave over, and entries without one end in one.
Each axis is left with one entry, which becomes an interval.  The processing shape counts the
indices on every input axis; the final shape leaves out the axes that a single index was taken from
and has the new ones.
-/
namespace Hyperslab

/-- An axis of the input, and what is selected on it. -/
structure AxisSelection where
  extent : Nat
  interval : Interval
  /-- Whether the final shape leaves the axis out. -/
  dropped : Bool
  deriving DecidableEq, Repr

/-- What stands at one place of a resolved selection. -/
inductive Slot where
  | axis (a : AxisSelection)
  /-- A new axis of extent one. -/
  | inserted
  deriving DecidableEq, Repr

/-- The result of resolving: what stands at each place, in order. -/
structure Resolution where
  slots : List Slot
  deriving DecidableEq, Repr

namespace AxisSelection

def size (a : AxisSelection) : Nat := a.interval.size

def isWhole (a : AxisSelection) : Bool := a.interval.isWhole a.extent

end AxisSelection

namespace Slot

def axis? : Slot → Option AxisSelection
  | axis a => some a
  | inserted => none

/-- The extent in the final shape, if the slot has one there. -/
def finalExtent? : Slot → Option Nat
  | axis a => if a.dropped then none else some a.size
  | inserted => some 1

end Slot

namespace Resolution

def axes (r : Resolution) : List AxisSelection := r.slots.filterMap Slot.axis?

def inputShape (r : Resolution) : Shape := r.axes.map (·.extent)

def intervals (r : Resolution) : List Interval := r.axes.map (·.interval)

def processingShape (r : Resolution) : Shape := r.axes.map (·.size)

def finalShape (r : Resolution) : Shape := r.slots.filterMap Slot.finalExtent?

def dropped (r : Resolution) : List Bool := r.axes.map (·.dropped)

/-- The number of elements selected. -/
def size (r : Resolution) : Nat := r.processingShape.size

/-- Whether every axis is taken whole. -/
def isIdentity (r : Resolution) : Bool := r.axes.all (·.isWhole)

/-- Whether every step is one. -/
def isSimple (r : Resolution) : Bool := r.axes.all (·.interval.step == 1)

/-- Whether the selection is a run of the first axis with every other axis taken whole. -/
def isLead (r : Resolution) : Bool :=
  match r.axes with
  | [] => true
  | first :: rest => first.interval.step == 1 && rest.all (·.isWhole)

end Resolution

namespace Entry

/-- A single index on an axis; a negative one counts from the end. -/
def point (axis extent : Nat) (index : Int) : Except Fault AxisSelection :=
  let i := if index < 0 then extent + index else index
  if 0 ≤ i ∧ i < extent then .ok ⟨extent, .single i, true⟩
  else .error (.indexOutOfBounds index axis extent)

/-- What an entry selects on the axis that it is bound to. -/
def select (axis extent : Nat) : Entry → Except Fault AxisSelection
  | fixed i => point axis extent i
  | range start stop step =>
    if step = 0 then .error (.zeroStride axis)
    else .ok ⟨extent, .ofBounds extent start stop step, false⟩
  | full | newAxis | ellipsis => .ok ⟨extent, .whole extent, false⟩

/-- The entries of the axes from number `axis` on, against their extents. -/
def selectFrom (axis : Nat) : List Entry → Shape → Except Fault (List AxisSelection)
  | e :: es, d :: dims => do
    let a ← e.select axis d
    return a :: (← selectFrom (axis + 1) es dims)
  | _, _ => .ok []

end Entry

/-- What stands at a place, when the axes have been resolved. -/
def Gather.slot? (axes : List AxisSelection) : Gather → Option Slot
  | axis i => axes[i]?.map .axis
  | inserted => some .inserted

/-- Resolves entries against a shape.  Too many entries are told before any fault of a single
entry. -/
def Entry.resolve (shape : Shape) (es : List Entry) : Except Fault Resolution := do
  let dense ← Dense.ofEntries shape.length (closed es)
  let axes ← selectFrom 0 dense.entries shape
  return ⟨dense.gather.filterMap (Gather.slot? axes)⟩

end Hyperslab
