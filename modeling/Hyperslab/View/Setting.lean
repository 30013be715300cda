import Hyperslab.Literal.Spread
import Hyperslab.View.Indexing

/-!
# Elements set in place

A value is written to the element at an index, or spread over the elements of the axes that the
index leaves open.  A host array is looked up before the value is read, and a tensor after it.
-/
namespace Hyperslab

namespace Literal
namespace Host

/-- The code of a value that is to be one element.  A sequence is no element, but it is true or
false. -/
def element (t : ElementType) (v : Value) : Except Fault Int :=
  match t, v with
  | .boolean, v => code .boolean v
  | t, .array ⟨.host, l, _⟩ =>
    match l.shape, l.single? with
    | [], some c => .ok (l.type.convert t c)
    | _, _ => .error .sequenceElement
  | _, .list _ | _, .tuple _ => .error .sequenceElement
  | t, v => code t v

/-- The literal of a value that is spread over `rank` axes. -/
def written (t : ElementType) (rank : Nat) (v : Value) : Except Fault Literal := do
  if rank = 0 then return ⟨t, [], [← element t v]⟩
  let l ← ofValue (some t) v
  match v with
  | .array _ => return l
  | _ => if rank < l.shape.length then throw .sequenceElement else return l

end Host

namespace Tensor

/-- Whether a 64-bit number becomes an infinity among shorter ones that it was not before. -/
def isLost (t : ElementType) (bits : Nat) : Bool :=
  match t.format?, Number.binary64.read bits with
  | some f, .finite _ m p =>
    let greatest := f.infinity - 1
    match f.read greatest with
    | .finite _ n q => n * Number.twoTo q.toNat * Number.twoTo (-p).toNat <
        m * Number.twoTo p.toNat * Number.twoTo (-q).toNat
    | _ => false
  | _, _ => false

/-- The code of a single number that is written to a tensor. -/
def element (t : ElementType) (v : Value) : Except Fault Int :=
  match float? v, v with
  | some bits, _ =>
    if t.isWhole then floatCode t bits
    else if isLost t bits then .error .cellRange
    else .ok (t.ofFloat bits)
  | none, .boolean b => .ok (t.ofInt (if b then 1 else 0))
  | none, .whole n => ofWhole n
  | none, .scalar s n => if s.isWhole then ofWhole n else .error .noWholeReading
  | none, _ => .error .noWholeReading
where
  ofWhole (n : Int) : Except Fault Int :=
    if t.isWhole then wholeCode t n
    else if ElementType.int64.inRange n then .ok (t.ofInt n)
    else .error .wordRange

/-- The literal of what is written to a tensor: a single number, or the elements of a tensor. -/
def written (t : ElementType) : Value → Except Fault Literal
  | .array ⟨.tensor, l, _⟩ => .ok ⟨t, l.shape, l.codes.map (l.type.convert t)⟩
  | v => do return ⟨t, [], [← element t v]⟩

end Tensor
end Literal

namespace View

/-- Writes a value to the element at an index, or to all elements of the axes that it leaves
open. -/
def setElement (v : View) (place : List Int) (value : Value) : Memory Unit := do
  let window : Except Fault View := v.window (place.map .point)
  let fillWith (w : View) (l : Literal) (misfit : Fault) : Memory Unit :=
    match l.spread? w.shape with
    | some codes => modify (w.fill codes)
    | none => throw misfit
  match v.kind with
  | .host =>
    if !v.writeable then throw .cellsReadOnly
    let w ← ofExcept window
    fillWith w (← ofExcept (Literal.Host.written v.type w.layout.rank value)) .hostReshape
  | .tensor =>
    let l ← ofExcept (Literal.Tensor.written v.type value)
    let w ← ofExcept window
    if v.tracking = .leaf ∨ v.tracking = .leafView then throw .trackedCells
    fillWith w l .tensorReshape

end View
end Hyperslab
