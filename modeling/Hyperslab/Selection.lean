import Hyperslab.Index.Text
import Hyperslab.MaskSpec.Loose
import Hyperslab.Resolution

/-!
# Selections from loosely typed parts

A specification is given in bitmask form, as a textual index, or as the value of an index; a shape
is any sequence of whole numbers that are not negative.
-/
namespace Hyperslab

/-- The specification that a value stands for. -/
def MaskSpec.ofValue : Value → Except Fault MaskSpec
  | .masks m => .ok m
  | .text s => do return Index.spec (← Index.read s)
  | v => do return Index.spec (← Index.ofValue v)

/-- The selection that a specification makes in an array of the given shape. -/
def MaskSpec.resolve (m : MaskSpec) (shape : Shape) : Except Fault Resolution := do
  Entry.resolve shape (← m.entries)

/-- Extents that are not negative. -/
def Shape.ofInts (dims : List Int) : Except Fault Shape :=
  if dims.all (0 ≤ ·) then .ok (dims.map Int.toNat) else .error (.negativeDims dims)

def Shape.ofValue (v : Value) : Except Fault Shape := do
  match ← v.wholes? with
  | some dims => ofInts dims
  | none => throw (.shapeNotIntegers v.written?)

/-- The extents as a text. -/
def Shape.write (s : Shape) : Except Fault String :=
  if s.all (Text.legible ·) then .ok s.text else .error .longNumber

/-- The selection that a value makes in an array of the given shape. -/
def Resolution.ofValue (shape : Shape) (spec : Value) : Except Fault Resolution := do
  (← MaskSpec.ofValue spec).resolve shape

end Hyperslab
