import Hyperslab.ArrayKind
import Hyperslab.Element
import Hyperslab.Layout.Reshape
import Hyperslab.Store

/-!
# Arrays: typed windows onto buffers

Arrays of both kinds are an element type, a buffer and a layout.
-/
namespace Hyperslab

/-- What gradients have to do with a tensor. -/
inductive Tracking where
  | untracked
  /-- Gradients are collected here. -/
  | leaf
  /-- A window onto the cells of a leaf. -/
  | leafView
  /-- The result of an operation on tracked tensors. -/
  | derived
  deriving DecidableEq, Repr

structure View where
  kind : ArrayKind
  type : ElementType
  buffer : Nat
  layout : Layout
  writeable : Bool := true
  tracking : Tracking := .untracked
  /-- Where the storage of a tensor starts in the buffer. -/
  start : Int := 0
  deriving DecidableEq, Repr

namespace Tracking

/-- The tracking of another window onto the same cells. -/
def view : Tracking → Tracking
  | leaf | leafView => leafView
  | t => t

/-- The tracking of new cells with the same elements. -/
def copy : Tracking → Tracking
  | untracked => untracked
  | _ => derived

end Tracking

namespace View

def shape (v : View) : Shape := v.layout.shape

def size (v : View) : Nat := v.layout.size

def places (v : View) : List Int := v.layout.places

/-- The codes of the elements in row-major order. -/
def codes (v : View) (s : Store) : List Int := s.gather v.buffer v.places

/-- Writes codes to the elements in row-major order. -/
def fill (v : View) (codes : List Int) (s : Store) : Store := s.scatter v.buffer v.places codes

/-- Whether two arrays have a cell in common. -/
def shares (v w : View) : Bool := v.buffer == w.buffer && v.places.any (w.places.contains ·)

/-- Another window onto the same buffer. -/
def withLayout (v : View) (l : Layout) : View := { v with layout := l, tracking := v.tracking.view }

/-- A new array whose elements, in row-major order, have the given codes. -/
def create (kind : ArrayKind) (type : ElementType) (l : Layout) (codes : List Int) :
    Memory View := do
  let s ← get
  let v : View := { kind, type, buffer := s.buffers.size, layout := l }
  set (v.fill codes (s.grow l.size))
  return v

/-- The bytes that an array takes.  On the host they are those without the extents that are zero. -/
def bytes : ArrayKind → ElementType → Shape → Nat
  | .host, type, s => type.itemSize * Shape.size (s.filter (· != 0))
  | .tensor, type, s => type.itemSize * s.size

/-- Refuses an array that there is no memory for. -/
def checkMemory (kind : ArrayKind) (type : ElementType) (s : Shape) (limit : Nat) :
    Except Fault Unit :=
  if bytes kind type s ≤ limit then .ok ()
  else .error (match kind with
    | .host => .noMemory
    | .tensor => .tensorSize)

/-- A new array, if there is memory for it. -/
def make (kind : ArrayKind) (type : ElementType) (l : Layout) (codes : List Int) : Memory View := do
  ofExcept (checkMemory kind type l.shape (← get).limit)
  create kind type l codes

/-- A new array without gaps that keeps the order of the axes in memory. -/
def copy (v : View) : Memory View := do
  let w ← make v.kind v.type v.layout.dense (v.codes (← get))
  return { w with tracking := v.tracking.copy }

/-- The bytes of a host array must fit in 64 bits. -/
def checkHost (type : ElementType) (s : Shape) : Except Fault Unit :=
  if maxAxes < s.length then .error .tooManyAxes
  else if !ElementType.int64.inRange (bytes .host type s) then .error .tooManyElements
  else .ok ()

/-- Whether a product of extents, taken in order, stays within 64 bits. -/
def countable : Nat → Shape → Bool
  | _, [] => true
  | count, n :: rest => count * n < Number.twoTo 64 && countable (count * n) rest

/-- The extents of a tensor must each fit in 64 bits, and so must its size. -/
def checkTensor (s : Shape) : Except Fault Unit :=
  if s.any fun n => !ElementType.int64.inRange n then .error .sizeRange
  else if !countable 1 s then .error .tensorSize
  else .ok ()

/-- Refuses a shape that no array has. -/
def checkShape : ArrayKind → ElementType → Shape → Except Fault Unit
  | .host, type, s => checkHost type s
  | .tensor, _, s => checkTensor s

def zeros (kind : ArrayKind) (type : ElementType) (s : Shape) : Memory View := do
  ofExcept (checkShape kind type s)
  make kind type (.rowMajor s) (List.replicate s.size 0)

/-- The same elements with elements of another type; a new array, unless it has the type already. -/
def ofType (v : View) (type : ElementType) : Memory View := do
  if v.type = type then return v
  let w ← make v.kind type (.rowMajor v.shape) ((v.codes (← get)).map (v.type.convert type))
  return { w with tracking := v.tracking.copy }

/-- The same elements in another shape: in the same cells if the layout allows it, else copied. -/
def reshape (v : View) (s : Shape) : Memory View := do
  if v.kind = .host ∧ maxAxes < s.length then throw .tooManyAxes
  if s.size ≠ v.size then
    throw (match v.kind with
      | .host => .hostReshape
      | .tensor => .tensorReshape)
  match v.layout.reshape? s with
  | some l => return v.withLayout l
  | none =>
    let w ← make v.kind v.type (.rowMajor s) (v.codes (← get))
    return { w with tracking := v.tracking.copy }

end View

end Hyperslab
