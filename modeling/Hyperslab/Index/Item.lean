import Hyperslab.Value

/-!
# Items of an index

An index is a list of items; it is written as a text or given as a value.  Both forms come down to
the same entries.
-/
namespace Hyperslab
namespace Index

inductive Item where
  | point (n : Int)
  /-- Bounds and step, each of which may be missing. -/
  | span (start stop step : Option Int)
  | newAxis
  | ellipsis
  deriving DecidableEq, Repr

namespace Item

def entry : Item → Entry
  | point n => .fixed n
  | span start stop step => Entry.ofRange start stop (step.getD 1)
  | newAxis => .newAxis
  | ellipsis => .ellipsis

/-- A whole number as an index; a truth value is refused although it could be read as one. -/
def whole : Value → Except Fault Int
  | .boolean b => .error (.booleanIndex b)
  | v => do
    match ← v.whole? with
    | some n => return n
    | none => throw (.invalidIndex v.written?)

def bound : Value → Except Fault (Option Int)
  | .null => .ok none
  | v => do return some (← whole v)

def ofValue : Value → Except Fault Item
  | .slice start stop step => do return span (← bound start) (← bound stop) (← bound step)
  | .ellipsis => .ok ellipsis
  | .null => .ok newAxis
  | v => do return point (← whole v)

end Item

/-- The items of a value: those of a tuple, or the value alone. -/
def ofValue : Value → Except Fault (List Item)
  | .tuple items => items.mapM Item.ofValue
  | v => do return [← Item.ofValue v]

/-- The specification of an index. -/
def spec (items : List Item) : MaskSpec := MaskSpec.ofEntries (items.map Item.entry)

end Index
end Hyperslab
