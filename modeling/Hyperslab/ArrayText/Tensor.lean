import Hyperslab.ArrayText.Host

/-!
# Tensors as values

A row of a tensor has as many elements on a line as fit when all have the width of the widest.
Floating-point elements have four places, or none when all of them are whole, and an exponent when
one of them is very large or very small or they are of very different sizes.  A remark that does not
fit on the last line stands on a line of its own.
-/
namespace Hyperslab
namespace ArrayText
namespace Tensor

def opening : String := "tensor("

def lineWidth : Nat := 80

def places : Nat := 4

/-- How floating-point elements are written. -/
inductive Form where
  | whole
  | fixed
  | scientific
  deriving DecidableEq, Repr

/-- Whether a size is a whole number. -/
def isWhole (size : Nat) : Bool :=
  match Number.binary64.read size with
  | .finite _ m p => m % Number.twoTo (-p).toNat == 0
  | _ => true

def needsExponent (sizes : List Nat) : Bool :=
  match sizes with
  | [] => false
  | c :: rest =>
    let f := Number.binary64
    let most := rest.foldl max c
    let least := rest.foldl min c
    f.ofInt 1000 < f.ratio most least || f.ofInt (Number.tenTo 8) < most ||
      least < f.roundQuotient 1 (Number.tenTo 4)

/-- The form of elements with the given 64-bit patterns. -/
def Form.ofCodes (codes : List Nat) : Form :=
  let sizes := Number.binary64.sizes codes
  if needsExponent sizes then .scientific else if sizes.all isWhole then .whole else .fixed

def Form.write (form : Form) (bits : Nat) : String :=
  match form with
  | .whole =>
    match Number.binary64.read bits with
    | .finite .. => Number.fixedText 0 Number.binary64 bits
    | _ => Number.plain.write Number.binary64 bits
  | .fixed => Number.fixedText places Number.binary64 bits
  | .scientific => Number.scientificText places Number.binary64 bits

/-- How the elements of one tensor are written, and the width of the widest. -/
structure Alignment where
  type : ElementType
  form : Form
  width : Nat
  deriving DecidableEq, Repr

namespace Alignment

/-- An element by its code, or by its 64-bit pattern when the type is a floating-point one. -/
def word (t : ElementType) (form : Form) (code : Int) : String :=
  if t.format?.isSome then form.write code.toNat else elementText t code

/-- The alignment of elements with the given codes.  Zeros and what is not finite do not count for
the width of floating-point elements. -/
def ofCodes (t : ElementType) (codes : List Int) : Alignment :=
  let form := Form.ofCodes (codes.map Int.toNat)
  let counted := if t.format?.isSome then
      codes.filter fun code => !(Number.binary64.sizes [code.toNat]).isEmpty
    else codes
  ⟨t, form, (counted.map fun code => (word t form code).length).foldl max 1⟩

def write (a : Alignment) (code : Int) : String := pad a.width (word a.type a.form code)

end Alignment

/-- A row in lines of `count` words, the first of them begun. -/
def lines (count indent : Nat) (words : List String) : String :=
  let marks := words.zipIdx.map fun (word, i) =>
    if i = 0 then word
    else if i % count = 0 then ",\n" ++ String.ofList (List.replicate (indent + 1) ' ') ++ word
    else ", " ++ word
  "[" ++ String.join marks ++ "]"

/-- The brackets of the axes from the given one on, where `indent` characters stand before them. -/
def block (inPart : Bool) (width : Nat) (word : Nat → String) (indent first : Nat) :
    Shape → String
  | [] => word first
  | [n] =>
    let words := (items inPart n).map fun i =>
      match i with
      | some k => word (first + k)
      | none => " ..."
    lines (max 1 ((lineWidth - indent) / (width + 2))) indent words
  | n :: rest =>
    let blocks := (items inPart n).map fun i =>
      match i with
      | some k => block inPart width word (indent + 1) (first + k * Shape.size rest) rest
      | none => "..."
    let separator := "," ++ String.ofList (List.replicate rest.length '\n') ++
      String.ofList (List.replicate (indent + 1) ' ')
    "[" ++ separator.intercalate blocks ++ "]"

def brackets (t : ElementType) (s : Shape) (codes : List Int) : String :=
  if s.size = 0 then "[]"
  else
    let wide := if t.format?.isSome then codes.map (t.convert .float64) else codes
    let cells := wide.toArray
    let cell (i : Nat) : Int := cells[i]?.getD 0
    let inPart := decide (threshold < s.size)
    let alignment := Alignment.ofCodes t ((shownFrom inPart 0 s).map cell)
    block inPart alignment.width (fun i => alignment.write (cell i)) opening.length 0 s

/-- The element types that elements have unless another one is named. -/
def isUsual (t : ElementType) : Bool := t == .boolean || t == .int64 || t == .float32

/-- What is said behind the elements. -/
def remarks (l : Literal) (tracked : Bool) : List String :=
  let dtype := "dtype=torch." ++ l.type.name
  (if l.shape.size = 0 then
    (if l.shape.length ≠ 1 then ["size=" ++ tupleText (l.shape.map toString)] else []) ++
      (if l.type ≠ .float32 then [dtype] else [])
  else if isUsual l.type then [] else [dtype]) ++
  (if tracked then ["requires_grad=True"] else [])

/-- Adds remarks; `used` characters of the last line are taken. -/
def addRemarks (used : Nat) : List String → String
  | [] => ")"
  | r :: rest =>
    if lineWidth < used + r.length + 2 then
      ",\n" ++ String.ofList (List.replicate opening.length ' ') ++ r ++
        addRemarks (opening.length + r.length) rest
    else ", " ++ r ++ addRemarks (used + r.length + 2) rest

def describe (l : Literal) (tracked : Bool) : String :=
  let elements := opening ++ brackets l.type l.shape l.codes
  elements ++ addRemarks (Host.lastLine elements + 2) (remarks l tracked)

end Tensor
end ArrayText
end Hyperslab
