import Hyperslab.Element
import Hyperslab.Number.Column
import Hyperslab.Shape

/-!
# Printed arrays

The elements stand in nested brackets, and those of one array are equally wide.  A row that is
longer than a line is wrapped behind the last element that fits, and an array of more than a
thousand elements shows only the first and last three items of every axis.
-/
namespace Hyperslab
namespace ArrayText

/-- How an array is laid out. -/
structure Frame where
  /-- What stands between two elements. -/
  separator : String := " "
  /-- The characters before the first bracket. -/
  margin : Nat := 0
  lineWidth : Nat := 75
  /-- Whether small numbers are written without exponents. -/
  flatten : Bool := false
  deriving DecidableEq, Repr

/-- Arrays with more elements are shown in part. -/
def threshold : Nat := 1000

/-- Items shown at either end of an axis of an array that is shown in part. -/
def edge : Nat := 3

/-- How a number stands on its own.  One of 32 bits has an exponent from a million on. -/
def numberStyle (f : Number.Format) : Number.Style :=
  if f = Number.binary32 then { Number.plain with high := 6 } else Number.plain

/-- The text of an element on its own. -/
def elementText (t : ElementType) (code : Int) : String :=
  match t.format? with
  | some f => (numberStyle f).write f code.toNat
  | none => if t = .boolean then (if code = 0 then "False" else "True") else toString code

/-- What stands at one place along an axis; nothing where items are left out. -/
abbrev Item := Option Nat

/-- The items of an axis that are shown. -/
def items (inPart : Bool) (extent : Nat) : List Item :=
  if inPart && 2 * edge < extent then
    (List.range edge).map some ++ none :: (List.range edge).map fun i => some (extent - edge + i)
  else (List.range extent).map some

/-- The numbers, in row-major order, of the elements that are shown. -/
def shownFrom (inPart : Bool) (first : Nat) : Shape → List Nat
  | [] => [first]
  | n :: rest => (items inPart n).flatMap fun i =>
    match i with
    | some k => shownFrom inPart (first + k * Shape.size rest) rest
    | none => []

def pad (width : Nat) (s : String) : String :=
  String.ofList (List.replicate (width - s.length) ' ') ++ s

/-- Without the blanks at the end. -/
def trimEnd (s : String) : String := s.trimAsciiEnd.toString

/-- The words of a row, joined into lines.  `line` is the current line, `indent` stands at the start
of each line but the first, and the last word leaves room for a bracket as every other one does for
what separates it from the next. -/
def wrap (f : Frame) (room indent : Nat) (done line : String) : List String → String
  | [] => done ++ line
  | word :: rest =>
    let next := if rest.isEmpty then "" else f.separator
    if room < line.length + word.length && indent < line.length then
      let start := String.ofList (List.replicate indent ' ')
      wrap f room indent (done ++ trimEnd line ++ "\n") (start ++ word ++ next) rest
    else wrap f room indent done (line ++ word ++ next) rest

/-- The brackets of the axes from the given one on; `depth` brackets are open around it. -/
def block (f : Frame) (inPart : Bool) (word : Nat → String) (depth first : Nat) : Shape → String
  | [] => word first
  | [n] =>
    let words := (items inPart n).map fun i =>
      match i with
      | some k => word (first + k)
      | none => "..."
    let indent := f.margin + depth + 1
    let start := String.ofList (List.replicate indent ' ')
    let rows := wrap f (f.lineWidth - depth - 1) indent "" start words
    "[" ++ (rows.drop indent).toString ++ "]"
  | n :: rest =>
    let blocks := (items inPart n).map fun i =>
      match i with
      | some k => block f inPart word (depth + 1) (first + k * Shape.size rest) rest
      | none => "..."
    let separator := trimEnd f.separator ++ String.ofList (List.replicate rest.length '\n') ++
      String.ofList (List.replicate (f.margin + depth + 1) ' ')
    "[" ++ separator.intercalate blocks ++ "]"

/-- What the elements of an array have in common when they are written. -/
inductive Alignment where
  /-- Their points stand one below the other. -/
  | points (column : Number.Column)
  /-- They are justified to the right. -/
  | right (width : Nat)
  deriving DecidableEq, Repr

namespace Alignment

/-- The alignment of elements with the given codes.  Truth values have room for both of them. -/
def ofCodes (t : ElementType) (flatten : Bool) (codes : List Int) : Alignment :=
  match t.format? with
  | some f => points (.ofCodes f flatten (codes.map Int.toNat))
  | none =>
    right ((codes.map fun code => (elementText t code).length).foldl max
      (if t = .boolean then 5 else 0))

def write (a : Alignment) (t : ElementType) (code : Int) : String :=
  match a with
  | points column => column.write code.toNat
  | right width => pad width (elementText t code)

end Alignment

/-- The brackets of an array with the given codes in row-major order. -/
def brackets (f : Frame) (t : ElementType) (s : Shape) (codes : List Int) : String :=
  let cells := codes.toArray
  let cell (i : Nat) : Int := cells[i]?.getD 0
  if s.size = 0 then "[]"
  else if s = [] ∧ t.format?.isNone then elementText t (cell 0)
  else
    let inPart := decide (threshold < s.size)
    let alignment := Alignment.ofCodes t f.flatten ((shownFrom inPart 0 s).map cell)
    block f inPart (fun i => alignment.write t (cell i)) 0 0 s

/-- The text of an array with the given codes in row-major order. -/
def text (f : Frame) (t : ElementType) (s : Shape) (codes : List Int) : String :=
  match s with
  | [] => elementText t (codes.headD 0)
  | s => brackets f t s codes

end ArrayText
end Hyperslab
