import Hyperslab.ArrayText
import Hyperslab.Literal

/-!
# Host arrays as values

An array that is shown as a value stands in the call that makes it.  What the elements do not tell
is said behind them: the element type, unless it is the usual one for such elements, and the shape
of an array without elements or with some left out.
-/
namespace Hyperslab
namespace ArrayText
namespace Host

def opening : String := "array("

def lineWidth : Nat := 75

/-- The element types that elements have unless another one is named. -/
def isUsual (t : ElementType) : Bool := t == .boolean || t == .int64 || t == .float64

/-- What is said behind the elements. -/
def remarks (l : Literal) : List String :=
  let size := l.shape.size
  (if (size = 0 ∧ l.shape ≠ [0]) ∨ threshold < size then
    ["shape=" ++ tupleText (l.shape.map toString)] else []) ++
  (if size = 0 ∨ !isUsual l.type then ["dtype=" ++ l.type.name] else [])

/-- The characters behind the last line break. -/
def lastLine (s : String) : Nat := (s.toList.reverse.takeWhile (· != '\n')).length

def describe (l : Literal) : String :=
  let frame : Frame :=
    { separator := ", ", margin := opening.length, lineWidth := lineWidth - 1 }
  let elements := opening ++ brackets frame l.type l.shape l.codes
  match remarks l with
  | [] => elements ++ ")"
  | rs =>
    let elements := elements ++ ","
    let remark := ", ".intercalate rs ++ ")"
    if lineWidth < lastLine elements + remark.length + 1 then
      elements ++ "\n" ++ String.ofList (List.replicate opening.length ' ') ++ remark
    else elements ++ " " ++ remark

end Host
end ArrayText
end Hyperslab
