import Hyperslab.Entry
import Hyperslab.Fault

/-!
# Slicing specifications in bitmask form

Entry `i` is the `i`-th bound of each list, modified by bit `i` of each mask.  The masks rank in
one order: an ellipsis bit decides the entry, then a new-axis bit, then a shrink bit, and only a
plain entry looks at the two bits that ignore its bounds.  `entries` decodes a specification and
`ofEntries` writes one; writing fills the fields that decoding does not look at with zeros, and
strides with ones.
-/
namespace Hyperslab

structure MaskSpec where
  begins : List Int := []
  ends : List Int := []
  strides : List Int := []
  beginMask : Nat := 0
  endMask : Nat := 0
  ellipsisMask : Nat := 0
  newAxisMask : Nat := 0
  shrinkMask : Nat := 0
  deriving DecidableEq, Repr

namespace MaskSpec

/-- The number of entries. -/
def dims (s : MaskSpec) : Nat := s.begins.length

/-- The lists have one length, and at most one ellipsis bit is set: clearing the lowest set bit
leaves nothing. -/
def validate (s : MaskSpec) : Except Fault Unit :=
  if s.begins.length = s.ends.length ∧ s.ends.length = s.strides.length then
    if s.ellipsisMask &&& (s.ellipsisMask - 1) = 0 then .ok ()
    else .error (.severalEllipses s.ellipsisMask)
  else .error (.unequalLengths s.begins.length s.ends.length s.strides.length)

/-- Entry `i` from its three numbers.  The walk along a dropped axis is always forward, but a zero
stride is refused on it as on every other axis. -/
def entry (s : MaskSpec) (i : Nat) (first last stride : Int) : Except Fault Entry :=
  if s.ellipsisMask.testBit i then .ok .ellipsis
  else if s.newAxisMask.testBit i then .ok .newAxis
  else if s.shrinkMask.testBit i then
    if stride = 0 then .error (.zeroStride i) else .ok (.fixed first)
  else .ok (Entry.ofRange (if s.beginMask.testBit i then none else some first)
    (if s.endMask.testBit i then none else some last) stride)

def entriesFrom (s : MaskSpec) : Nat → List (Int × Int × Int) → Except Fault (List Entry)
  | _, [] => .ok []
  | i, (first, last, stride) :: rest => do
    let e ← s.entry i first last stride
    return e :: (← s.entriesFrom (i + 1) rest)

def entries (s : MaskSpec) : Except Fault (List Entry) := do
  s.validate
  s.entriesFrom 0 (s.begins.zip (s.ends.zip s.strides))

/-- The three numbers an entry is written with. -/
def numbers : Entry → Int × Int × Int
  | .fixed i => (i, i + 1, 1)
  | .range start stop step => (start.getD 0, stop.getD 0, step)
  | .full | .newAxis | .ellipsis => (0, 0, 1)

/-- The mask whose bit `i` says whether `p` holds of the `i`-th item. -/
def maskOf {α : Type} (p : α → Bool) : List α → Nat
  | [] => 0
  | a :: rest => 2 * maskOf p rest + (if p a then 1 else 0)

/-- The bits of the two bound masks: an entry without a bound on that side. -/
def opensAtBegin : Entry → Bool
  | .full => true
  | .range start _ _ => start.isNone
  | _ => false

def opensAtEnd : Entry → Bool
  | .full => true
  | .range _ stop _ => stop.isNone
  | _ => false

def isFixed : Entry → Bool
  | .fixed _ => true
  | _ => false

def ofEntries (es : List Entry) : MaskSpec where
  begins := es.map fun e => (numbers e).1
  ends := es.map fun e => (numbers e).2.1
  strides := es.map fun e => (numbers e).2.2
  beginMask := maskOf opensAtBegin es
  endMask := maskOf opensAtEnd es
  ellipsisMask := maskOf (· == .ellipsis) es
  newAxisMask := maskOf (· == .newAxis) es
  shrinkMask := maskOf isFixed es

end MaskSpec

end Hyperslab
