import Hyperslab.Interval
import Hyperslab.Shape

/-!
# Strided layouts

A layout gives each element of an array its place in a row of cells: the place of the first element,
and for each axis the distance from one index to the next.  `places` lists the places of all
elements in row-major order, so it says everything about a layout that reading and writing see.
-/
namespace Hyperslab

/-- An axis of a layout. -/
structure Dim where
  extent : Nat
  stride : Int
  deriving DecidableEq, Repr

structure Layout where
  offset : Int
  dims : List Dim
  deriving DecidableEq, Repr

namespace Layout

def shape (l : Layout) : Shape := l.dims.map (·.extent)

def rank (l : Layout) : Nat := l.dims.length

def size (l : Layout) : Nat := l.shape.size

/-! ## Places -/

/-- The places of the elements, counted from `base`. -/
def placesFrom (base : Int) : List Dim → List Int
  | [] => [base]
  | d :: rest =>
    (List.range d.extent).flatMap fun (k : Nat) => placesFrom (base + k * d.stride) rest

/-- The places of all elements in row-major order.  An axis may be long where another is empty, so
nothing is counted out when there is no element. -/
def places (l : Layout) : List Int := if l.size = 0 then [] else placesFrom l.offset l.dims

/-! ## Layouts without gaps -/

/-- Axes in row-major order: the last axis is the fastest. -/
def rowMajorDims : Shape → List Dim
  | [] => []
  | n :: rest => ⟨n, Shape.size rest⟩ :: rowMajorDims rest

def rowMajor (s : Shape) : Layout := ⟨0, rowMajorDims s⟩

/-- Axes in column-major order, when the first has the given stride. -/
def columnMajorDims (stride : Nat) : Shape → List Dim
  | [] => []
  | n :: rest => ⟨n, stride⟩ :: columnMajorDims (stride * n) rest

def columnMajor (s : Shape) : Layout := ⟨0, columnMajorDims 1 s⟩

/-- Whether strides are the row-major ones wherever an extent is not one. -/
def packed : List Dim → Bool
  | [] => true
  | d :: rest =>
    (d.extent == 1 || d.stride == (Shape.size (rest.map (·.extent)) : Int)) && packed rest

/-- Whether the elements stand next to one another in row-major order. -/
def isContiguous (l : Layout) : Bool := l.size == 0 || packed l.dims

/-- Whether axis `i` is slower than axis `j` in a copy: its stride is the greater one, and of two
equal strides the earlier axis is the slower. -/
def slower (a : Dim × Nat) (b : Dim × Nat) : Bool :=
  b.1.stride.natAbs < a.1.stride.natAbs || (a.1.stride.natAbs == b.1.stride.natAbs && a.2 < b.2)

/-- The layout of a copy: without gaps, with the axes in the order of their strides, and none of
them reversed. -/
def dense (l : Layout) : Layout :=
  let numbered := l.dims.zipIdx
  ⟨0, numbered.map fun a =>
    ⟨a.1.extent, Shape.size ((numbered.filter (slower a)).map (·.1.extent))⟩⟩

/-- Whether there is an axis along which the elements have the same cells. -/
def repeats (l : Layout) : Bool :=
  l.size != 0 && l.dims.any fun d => d.stride == 0 && decide (1 < d.extent)

/-! ## Views -/

/-- The axes in another order. -/
def permute (l : Layout) (order : List Nat) : Layout :=
  ⟨l.offset, order.filterMap (l.dims[·]?)⟩

/-- The same elements with the marked axes walked from the far end. -/
def flip (l : Layout) (marks : List Bool) : Layout :=
  let marked := l.dims.zip marks
  ⟨marked.foldl (fun o (d, m) => if m then o + ((d.extent : Int) - 1) * d.stride else o) l.offset,
    marked.map fun (d, m) => if m then ⟨d.extent, -d.stride⟩ else d⟩

/-- The window that starts at the start of each interval, walks in its step, and has the given
extents. -/
def window (l : Layout) (is : List Interval) (extents : Shape) : Layout :=
  let pairs := l.dims.zip is
  ⟨pairs.foldl (fun o (d, i) => o + i.start * d.stride) l.offset,
    List.zipWith (fun (d, i) n => ⟨n, i.step * d.stride⟩) pairs extents⟩

end Layout

end Hyperslab
