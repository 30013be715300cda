import Hyperslab.Value

/-!
# Specifications from loosely typed parts

The three lists take any sequence of whole numbers and the masks anything that can be made into
one.  The lists are read before the masks, each in the order of the fields, so of two faults the
first in that order is told.
-/
namespace Hyperslab

/-- The fields of a specification as they are given. -/
structure LooseMasks where
  begins : Value := .tuple []
  ends : Value := .tuple []
  strides : Value := .tuple []
  beginMask : Value := .whole 0
  endMask : Value := .whole 0
  ellipsisMask : Value := .whole 0
  newAxisMask : Value := .whole 0
  shrinkMask : Value := .whole 0

/-- An entry with loosely typed numbers, or a value that is no entry. -/
inductive LooseEntry where
  | full
  | fixed (index : Value)
  | range (start stop step : Value)
  | newAxis
  | ellipsis
  | other (v : Value)

namespace LooseMasks

def wholes (field : SpecField) (v : Value) : Except Fault (List Int) := do
  match ← v.wholes? with
  | some ns => return ns
  | none => throw (.notIntegers field v.written?)

def mask (field : SpecField) (v : Value) : Except Fault Nat := do
  let n ← v.toWhole
  if n < 0 then .error (.negativeMask field n) else .ok n.toNat

def build (l : LooseMasks) : Except Fault MaskSpec := do
  let begins ← wholes .begins l.begins
  let ends ← wholes .ends l.ends
  let strides ← wholes .strides l.strides
  let beginMask ← mask .beginMask l.beginMask
  let endMask ← mask .endMask l.endMask
  let ellipsisMask ← mask .ellipsisMask l.ellipsisMask
  let newAxisMask ← mask .newAxisMask l.newAxisMask
  let shrinkMask ← mask .shrinkMask l.shrinkMask
  return { begins, ends, strides, beginMask, endMask, ellipsisMask, newAxisMask, shrinkMask }

end LooseMasks

namespace LooseEntry

def isNull : Value → Bool
  | .null => true
  | _ => false

/-- A bound that counts as false, such as an empty text, is written as zero. -/
def bound (v : Value) : Except Fault Value := do
  return if ← v.truth then v else .whole 0

/-- The three numbers an entry is written with. -/
def numbers : LooseEntry → Except Fault (Value × Value × Value)
  | fixed index => do return (index, ← index.next, .whole 1)
  | range start stop step => do return (← bound start, ← bound stop, step)
  | full | newAxis | ellipsis => .ok (.whole 0, .whole 0, .whole 1)
  | other v => .error (.unsupportedEntry v.written?)

def opensAtBegin : LooseEntry → Bool
  | full => true
  | range start _ _ => isNull start
  | _ => false

def opensAtEnd : LooseEntry → Bool
  | full => true
  | range _ stop _ => isNull stop
  | _ => false

def isFixed : LooseEntry → Bool
  | fixed _ => true
  | _ => false

def isNewAxis : LooseEntry → Bool
  | newAxis => true
  | _ => false

def isEllipsis : LooseEntry → Bool
  | ellipsis => true
  | _ => false

end LooseEntry

/-- The specification of loosely typed entries. -/
def MaskSpec.ofLooseEntries (es : List LooseEntry) : Except Fault MaskSpec := do
  let numbers ← es.mapM LooseEntry.numbers
  let bits (p : LooseEntry → Bool) : Value := .whole (MaskSpec.maskOf p es)
  LooseMasks.build {
    begins := .tuple (numbers.map fun n => n.1)
    ends := .tuple (numbers.map fun n => n.2.1)
    strides := .tuple (numbers.map fun n => n.2.2)
    beginMask := bits LooseEntry.opensAtBegin
    endMask := bits LooseEntry.opensAtEnd
    ellipsisMask := bits LooseEntry.isEllipsis
    newAxisMask := bits LooseEntry.isNewAxis
    shrinkMask := bits LooseEntry.isFixed }

end Hyperslab
