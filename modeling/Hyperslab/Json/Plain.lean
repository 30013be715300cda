import Hyperslab.Json.Reader

/-!
# Values that JSON can hold

Elements of an element type become plain numbers, tuples become lists, keys become texts, and
anything else is shown as a text.
-/
namespace Hyperslab
namespace Value

/-- The text of a value on its own: a text is not quoted, and an element stands without its type. -/
def display : Value → String
  | text s => s
  | scalar type code => ArrayText.elementText type code
  | array a => a.display
  | v => v.describe

mutual

def plain : Value → Value
  | scalar type code =>
    match type.format? with
    | some _ => float (type.convert .float64 code).toNat
    | none => if type.isWhole then whole code else text (display (scalar type code))
  | list items | tuple items => list (plainAll items)
  | dict pairs => dict (Json.distinct (plainPairs pairs).reverse)
  | null => null
  | boolean b => boolean b
  | whole n => whole n
  | float bits => float bits
  | text s => text s
  | v => text (display v)

def plainAll : List Value → List Value
  | [] => []
  | v :: rest => plain v :: plainAll rest

def plainPairs : List (Value × Value) → List (Value × Value)
  | [] => []
  | (k, v) :: rest => (text (display k), plain v) :: plainPairs rest

end

end Value
end Hyperslab
