import Hyperslab.MaskSpec
import Hyperslab.Snapshot
import Hyperslab.Text.Quoted

/-!
# Loosely typed values

Shapes, indices, switches and operands are taken in many forms.  `Value` is the common form in which
they arrive, and this module gives the readings that all of them share: as a whole number, as a
truth value, as a sequence, and as a printed text.
-/
namespace Hyperslab

inductive Value where
  | null
  | boolean (b : Bool)
  | whole (n : Int)
  /-- A floating-point number by its 64-bit pattern. -/
  | float (bits : Nat)
  | text (s : String)
  | list (items : List Value)
  | tuple (items : List Value)
  | slice (start stop step : Value)
  | ellipsis
  /-- A single element of an element type, by its code. -/
  | scalar (type : ElementType) (code : Int)
  | array (a : Snapshot)
  | dict (pairs : List (Value × Value))
  | masks (spec : MaskSpec)

namespace Value

/-! ## The printed form -/

def booleanText (b : Bool) : String := if b then "True" else "False"

/-- An element of an element type, inside the name of its type. -/
def scalarText (type : ElementType) (code : Int) : String :=
  let text := ArrayText.elementText type code
  if type = .boolean then s!"np.{text}_" else s!"np.{type.name}({text})"

def masksText (s : MaskSpec) : String :=
  let numbers (ns : List Int) : String := tupleText (ns.map toString)
  s!"RawSpec(begin={numbers s.begins}, end={numbers s.ends}, strides={numbers s.strides}, " ++
    s!"begin_mask={s.beginMask}, end_mask={s.endMask}, ellipsis_mask={s.ellipsisMask}, " ++
    s!"new_axis_mask={s.newAxisMask}, shrink_axis_mask={s.shrinkMask})"

mutual

def describe : Value → String
  | null => "None"
  | boolean b => booleanText b
  | whole n => toString n
  | float bits => Number.plain.write Number.binary64 bits
  | text s => String.ofList (Text.quote s.toList)
  | list items => "[" ++ ", ".intercalate (describeAll items) ++ "]"
  | tuple items => tupleText (describeAll items)
  | slice start stop step =>
    "slice(" ++ describe start ++ ", " ++ describe stop ++ ", " ++ describe step ++ ")"
  | ellipsis => "Ellipsis"
  | scalar type code => scalarText type code
  | array a => a.describe
  | dict pairs => "\x7b" ++ ", ".intercalate (describePairs pairs) ++ "\x7d"
  | masks spec => masksText spec

def describeAll : List Value → List String
  | [] => []
  | v :: rest => describe v :: describeAll rest

def describePairs : List (Value × Value) → List String
  | [] => []
  | (k, v) :: rest => (describe k ++ ": " ++ describe v) :: describePairs rest

end

mutual

/-- Whether every whole number in the printed form can be written. -/
def legible : Value → Bool
  | whole n => Text.legible n
  | list items | tuple items => legibleAll items
  | slice start stop step => legible start && legible stop && legible step
  | dict pairs => legiblePairs pairs
  | masks s =>
    (s.begins ++ s.ends ++ s.strides).all Text.legible &&
      [s.beginMask, s.endMask, s.ellipsisMask, s.newAxisMask, s.shrinkMask].all (Text.legible ·)
  | _ => true

def legibleAll : List Value → Bool
  | [] => true
  | v :: rest => legible v && legibleAll rest

def legiblePairs : List (Value × Value) → Bool
  | [] => true
  | (k, v) :: rest => legible k && legible v && legiblePairs rest

end

/-- The printed form of a value, if it can be written. -/
def written? (v : Value) : Option String := if v.legible then some v.describe else none

/-- The name of a value's kind. -/
def typeName : Value → String
  | null => "NoneType"
  | boolean _ => "bool"
  | whole _ => "int"
  | float _ => "float"
  | text _ => "str"
  | list _ => "list"
  | tuple _ => "tuple"
  | slice .. => "slice"
  | ellipsis => "ellipsis"
  | scalar type _ => type.name
  | array a => a.kind.typeName
  | dict _ => "dict"
  | masks _ => "RawSpec"

/-! ## Readings -/

/-- Whether a value counts as true: a number other than zero, or anything that is not empty.  An
array counts as its only element. -/
def truth : Value → Except Fault Bool
  | null => .ok false
  | boolean b => .ok b
  | whole n => .ok (n != 0)
  | float bits => .ok !(Number.binary64.read bits).isZero
  | text s => .ok !s.isEmpty
  | list items | tuple items => .ok !items.isEmpty
  | scalar type code => .ok !type.isZero code
  | array a => a.truth
  | dict pairs => .ok !pairs.isEmpty
  | slice .. | ellipsis | masks _ => .ok true

/-- The whole number that a value is as it stands, if it is one. -/
def whole? : Value → Except Fault (Option Int)
  | boolean b => .ok (some (if b then 1 else 0))
  | whole n => .ok (some n)
  | scalar type code => .ok (if type.isWhole then some code else none)
  | array a => a.whole?
  | _ => .ok none

/-- The whole number that a value can be made into: a floating-point number loses its fraction,
and a text is read as a numeral. -/
def toWhole : Value → Except Fault Int
  | boolean b => .ok (if b then 1 else 0)
  | whole n => .ok n
  | float bits => ofReading (Number.binary64.read bits)
  | text s => match Text.numeral? s.toList with
    | some n => .ok n
    | none => .error .badNumeral
  | scalar type code => ofCode type code
  | array a => do
    let code ← a.number
    if a.kind = .tensor ∧ a.type.isWhole ∧ ¬ ElementType.int64.inRange code then throw .cellRange
    ofCode a.type code
  | _ => .error .noWholeReading
where
  ofCode (type : ElementType) (code : Int) : Except Fault Int :=
    match type.format? with
    | some f => ofReading (f.read code.toNat)
    | none => .ok code
  ofReading (r : Number.Reading) : Except Fault Int :=
    match r.truncate?, r with
    | some n, _ => .ok n
    | none, .nan => .error .badNumeral
    | none, _ => .error .tooLarge

/-- The 64-bit pattern of the floating-point number that a value can be made into. -/
def toFloat : Value → Except Fault Nat
  | boolean b => .ok (Number.binary64.ofInt (if b then 1 else 0))
  | whole n =>
    if ElementType.exceedsFloat n then .error .tooLarge else .ok (Number.binary64.ofInt n)
  | float bits => .ok bits
  | text s => match Number.float? Number.binary64 s.toList with
    | some bits => .ok bits
    | none => .error .badNumeral
  | scalar type code => .ok (type.convert .float64 code).toNat
  | array a => do return (a.type.convert .float64 (← a.number)).toNat
  | _ => .error .noWholeReading

/-- The items of a value that has any: a text has its characters, a dictionary its keys, and a host
array with one axis its elements. -/
def items? : Value → Option (List Value)
  | list items | tuple items => some items
  | text s => some (s.toList.map fun c => text (String.singleton c))
  | dict pairs => some (pairs.map Prod.fst)
  | array a => a.items?.map fun parts => parts.map fun part =>
    match part.kind, part.shape, part.elements.single? with
    | .host, [], some code => scalar part.type code
    | _, _, _ => array part
  | _ => none

/-- Values as whole numbers, if all of them are. -/
def allWhole? : List Value → Except Fault (Option (List Int))
  | [] => .ok (some [])
  | v :: rest => do
    match ← v.whole? with
    | none => return none
    | some n => return (← allWhole? rest).map (n :: ·)

/-- The items of a value as whole numbers. -/
def wholes? (v : Value) : Except Fault (Option (List Int)) :=
  match v.items? with
  | some items => allWhole? items
  | none => .ok none

/-- The sum of a number and one. -/
def next : Value → Except Fault Value
  | boolean b => .ok (whole (if b then 2 else 1))
  | whole n => .ok (whole (n + 1))
  | float bits => .ok (float (ElementType.floatNext Number.binary64 bits))
  | scalar type code => .ok (scalar type.next.1 (type.next.2 code))
  | array a => do return array (← a.next)
  | _ => .error .noWholeReading

end Value

end Hyperslab
