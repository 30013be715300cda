import Hyperslab.Resolution
import Hyperslab.View

/-!
# Strided walks

A walk reads or writes the window that intervals select.  A host array takes a step of any sign as a
stride.  A tensor cannot walk backwards, so a reversed axis is walked forward from the last element
that is selected, and the elements are turned around: after reading, or before writing.
-/
namespace Hyperslab

inductive WalkMode where
  | extract
  | gradient
  | assign
  deriving DecidableEq, Repr

def WalkMode.name : WalkMode → String
  | extract => "extract"
  | gradient => "gradient"
  | assign => "assign"

/-- A walk of a fixed rank. -/
structure Walker where
  rank : Int
  deriving DecidableEq, Repr

/-- A forward window, and the axes on which it has to be turned around. -/
structure ForwardWindow where
  layout : Layout
  flips : List Bool
  deriving DecidableEq, Repr

namespace ForwardWindow

/-- The forward window onto the cells of a layout. -/
def ofLayout (l : Layout) : ForwardWindow :=
  let flips := l.dims.map fun d => decide (d.stride < 0)
  ⟨l.flip flips, flips⟩

/-- The codes of the elements, which are given in the order of the forward window, turned around. -/
def turn (w : ForwardWindow) (codes : List Int) : List Int :=
  ((Layout.rowMajor w.layout.shape).flip w.flips).places.map fun p => codes[p.toNat]?.getD 0

/-- One more than the greatest place that the window reaches. -/
def reach (w : ForwardWindow) : Int :=
  w.layout.dims.foldl (fun o d => o + ((d.extent : Int) - 1) * d.stride) w.layout.offset + 1

end ForwardWindow

namespace View

/-- Whether strides fit in 64 bits when they count units of the given number of bytes. -/
def stridesFit (l : Layout) (unit : Nat) : Bool :=
  l.dims.all fun d => ElementType.int64.inRange (d.stride * unit)

/-- The window of a host array. -/
def signedWindow (v : View) (is : List Interval) (extents : Shape) : Except Fault Layout :=
  let l := v.layout.window is extents
  if stridesFit l v.type.itemSize then .ok l else .error .hostStride

/-- The window of a tensor, which must lie in its buffer. -/
def forwardWindow (v : View) (s : Store) (is : List Interval) (extents : Shape) :
    Except Fault ForwardWindow :=
  let w := ForwardWindow.ofLayout (v.layout.window is extents)
  if !stridesFit w.layout 1 then .error .tensorStride
  else if w.layout.size ≠ 0 ∧ (w.layout.offset < 0 ∨ (s.extent v.buffer : Int) < w.reach) then
    .error .tensorBounds
  else .ok w

/-- A new array with the elements of a window. -/
def readWindow (v : View) (is : List Interval) (extents : Shape) : Memory View := do
  let s ← get
  match v.kind with
  | .host =>
    let l ← ofExcept (v.signedWindow is extents)
    make .host v.type l.dense (s.gather v.buffer l.places)
  | .tensor =>
    let w ← ofExcept (v.forwardWindow s is extents)
    let codes := w.turn (s.gather v.buffer w.layout.places)
    let out ← make .tensor v.type w.layout.dense codes
    return { out with tracking := v.tracking.copy }

/-- The codes of the elements of another array in the element type of this one. -/
def codesFrom (v w : View) (s : Store) : List Int := (w.codes s).map (w.type.convert v.type)

/-- Whether the elements of another array are all read before the first is written to this one.  A
host array sees to that.  A tensor takes elements of its own type from where they are, unless both
storages start at the same cell; two storages that do not may overlap all the same. -/
def readsFirst (v w : View) : Bool :=
  v.kind == .host || w.type != v.type || (w.buffer == v.buffer && w.start == v.start)

/-- Writes the elements of another array, in row-major order, to places of this one. -/
def transfer (v : View) (places : List Int) (w : View) (s : Store) : Store :=
  if v.readsFirst w then s.scatter v.buffer places (v.codesFrom w s)
  else s.move w.buffer w.places v.buffer places

/-- Writes the elements of another array, in row-major order, to the elements of a window.  A tensor
is not written where an axis repeats its cells, and what is turned around has been read before. -/
def writeWindow (v : View) (is : List Interval) (extents : Shape) (w : View) : Memory Unit := do
  let s ← get
  match v.kind with
  | .host =>
    let l ← ofExcept (v.signedWindow is extents)
    if !v.writeable then throw .cellsReadOnly
    set (v.transfer l.places w s)
  | .tensor =>
    let f ← ofExcept (v.forwardWindow s is extents)
    if f.layout.repeats then throw .sharedCells
    if f.flips.contains true then
      set (s.scatter v.buffer f.layout.places (f.turn (v.codesFrom w s)))
    else set (v.transfer f.layout.places w s)

/-- Writes the elements of another array, in row-major order, to the elements of this one. -/
def writeAll (v w : View) : Memory Unit := do
  let w ← w.reshape v.shape
  modify (v.transfer v.places w)

end View

namespace Walker

def name (w : Walker) : Except Fault String :=
  if Text.legible w.rank then .ok s!"walk_rank{w.rank}" else .error .longNumber

/-- The walk of a rank, up to a cap. -/
def ofRank (rank cap : Int) : Except Fault Walker :=
  if rank < 1 ∨ cap < rank then .error (.unsupportedRank rank cap) else .ok ⟨rank⟩

/-- Walks the window of an array.  Reading gives a new array, and writing gives back the array that
was written to.  Distinct indices of a window are distinct elements, so a gradient needs no
accumulation and is a plain write. -/
def walk (w : Walker) (target : View) (is : List Interval) (extents : Shape) (mode : WalkMode)
    (values : Option View) : Memory View := do
  if w.rank ≠ is.length ∨ w.rank ≠ extents.length then
    throw (.walkArity w.rank is.length extents.length)
  match mode, values with
  | .extract, _ => target.readWindow is extents
  | mode, none => throw (.walkWithoutValues mode.name)
  | _, some values =>
    target.writeWindow is extents (← values.reshape extents)
    return target

/-- A walk with extents that may be negative, which no window has. -/
def walkGiven (w : Walker) (target : View) (is : List Interval) (extents : List Int)
    (mode : WalkMode) (values : Option View) : Memory View := do
  if extents.all (0 ≤ ·) then w.walk target is (extents.map Int.toNat) mode values
  else if w.rank ≠ is.length ∨ w.rank ≠ extents.length then
    throw (.walkArity w.rank is.length extents.length)
  else if mode ≠ .extract ∧ values.isNone then throw (.walkWithoutValues mode.name)
  else throw (.negativeExtent (target.kind == .tensor))

end Walker

/-- The walk of the window that a resolution selects. -/
def Resolution.walk (r : Resolution) (target : View) (mode : WalkMode) (values : Option View)
    (cap : Nat) : Memory View := do
  let w ← ofExcept (Walker.ofRank r.axes.length cap)
  w.walk target r.intervals r.processingShape mode values

end Hyperslab
