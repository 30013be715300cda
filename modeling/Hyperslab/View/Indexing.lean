import Hyperslab.Interval
import Hyperslab.Operand

/-!
# Windows by index

An index takes a window onto an array without copying.  Unlike a selection it is checked by the
array itself, so its faults are those of the array and not those of a specification.  How many axes
an index takes is settled before any of its items is applied.
-/
namespace Hyperslab
namespace View

/-- An item of the index of a window. -/
inductive KeyItem where
  | point (n : Int)
  /-- Bounds and step, each of which may be null. -/
  | span (start stop step : Value)
  | newAxis
  | ellipsis

namespace KeyItem

def ofValue : Value → Except Fault KeyItem
  | .slice start stop step => .ok (span start stop step)
  | .ellipsis => .ok ellipsis
  | .null => .ok newAxis
  | .boolean _ => .error .elementIndex
  | v => do
    match ← v.whole? with
    | some n => return point n
    | none => throw .elementIndex

/-- Whether the item takes an axis of the array. -/
def takesAxis : KeyItem → Bool
  | point _ | span .. => true
  | newAxis | ellipsis => false

def isEllipsis : KeyItem → Bool
  | ellipsis => true
  | _ => false

/-- Whether the window has an axis for the item. -/
def givesAxis : KeyItem → Bool
  | span .. | newAxis => true
  | point _ | ellipsis => false

/-- A bound or step, which may be missing. -/
def bound : Value → Except Fault (Option Int)
  | .null => .ok none
  | v => do
    match ← v.whole? with
    | some n => return some n
    | none => throw .noWholeReading

end KeyItem

/-- A place along an axis: one index, which takes the axis away, or an interval. -/
def along (v : View) (d : Dim) : KeyItem → Except Fault (Int × List Dim)
  | .point n =>
    let i := if n < 0 then d.extent + n else n
    if v.kind = .tensor ∧ ¬ ElementType.int64.inRange n then .error .wordRange
    else if 0 ≤ i ∧ i < d.extent then .ok (i * d.stride, [])
    else .error .elementIndex
  | .span start stop step => do
    let step := (← KeyItem.bound step).getD 1
    if step = 0 ∨ (v.kind = .tensor ∧ step < 0) then throw .viewStep
    let i := Interval.ofBounds d.extent (← KeyItem.bound start) (← KeyItem.bound stop) step
    if i.size = 0 then return (0, [⟨0, d.stride⟩])
    return (i.start * d.stride, [⟨i.size, i.step * d.stride⟩])
  | .newAxis => .ok (0, [⟨1, 0⟩])
  | .ellipsis => .ok (0, [d])

/-- Axes under the items of an index, where an ellipsis takes `spare` axes.  An ellipsis that finds
fewer axes leaves no room for another item. -/
def under (v : View) (spare : Nat) : List Dim → List KeyItem → Except Fault (Int × List Dim)
  | dims, [] => .ok (0, dims)
  | dims, .newAxis :: items => do
    let (o, rest) ← under v spare dims items
    return (o, ⟨1, 0⟩ :: rest)
  | dims, .ellipsis :: items =>
    if dims.length < spare then
      if items.all KeyItem.isEllipsis then .ok (0, dims) else .error .elementIndex
    else do
      let (o, rest) ← under v spare (dims.drop spare) items
      return (o, dims.take spare ++ rest)
  | [], _ :: _ => .error .elementIndex
  | d :: dims, item :: items => do
    let (o, first) ← v.along d item
    let (p, rest) ← under v spare dims items
    return (o + p, first ++ rest)

/-- Refuses an index that takes more axes than there are.  On a host array there is one ellipsis at
most, and a window onto it has no more axes than a host array may have. -/
def checkIndex (v : View) (items : List KeyItem) : Except Fault Unit :=
  let taken := items.countP KeyItem.takesAxis
  if v.layout.rank < taken then .error .elementIndex
  else if v.kind = .host ∧ (1 < items.countP KeyItem.isEllipsis ∨
      maxAxes < items.countP KeyItem.givesAxis + (v.layout.rank - taken)) then .error .elementIndex
  else .ok ()

/-- The window under the items of an index. -/
def window (v : View) (items : List KeyItem) : Except Fault View := do
  v.checkIndex items
  let spare := v.layout.rank - items.countP KeyItem.takesAxis
  let (o, dims) ← v.under spare v.layout.dims items
  return v.withLayout ⟨v.layout.offset + o, dims⟩

/-- The items of a value: those of a tuple, or the value alone. -/
def keyItems : Value → Except Fault (List KeyItem)
  | .tuple items => items.mapM KeyItem.ofValue
  | v => do return [← KeyItem.ofValue v]

/-- What an index finds in an array: a window onto it.  An index for every axis of a host array
finds the element itself, unless an ellipsis says that it is to stay an array. -/
def index (v : View) (s : Store) (key : Value) : Except Fault Operand := do
  let items ← keyItems key
  let w ← v.window items
  if v.kind = .host ∧ w.layout.rank = 0 ∧ !items.any KeyItem.isEllipsis then
    return .value (.scalar v.type ((w.codes s).headD 0))
  return .array w

/-- The numbers of axes in an order, each of them once; a negative number counts from the end. -/
def axisNumbers (v : View) (seen : List Nat) : List Int → Except Fault (List Nat)
  | [] => .ok []
  | i :: rest => do
    let rank := v.layout.rank
    let n := if i < 0 then rank + i else i
    if n < 0 ∨ rank ≤ n then throw (.axisNumber (v.kind == .tensor))
    if seen.contains n.toNat then throw (.axisOrder (v.kind == .tensor))
    return n.toNat :: (← axisNumbers v (n.toNat :: seen) rest)

/-- The array with its axes in another order. -/
def transpose (v : View) (order : List Int) : Except Fault View := do
  if order.length ≠ v.layout.rank then throw (.axisOrder (v.kind == .tensor))
  return v.withLayout (v.layout.permute (← v.axisNumbers [] order))

end View
end Hyperslab
