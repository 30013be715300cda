import Hyperslab.Fault
import Hyperslab.Text.Numeral
import Hyperslab.Text.Quoted

/-!
# Shapes written as texts

A shape is written as whole numbers with commas between them.  Brackets and blanks around the text,
blanks around a number and empty parts do not count, so both forms in which shapes are printed can
be read.
-/
namespace Hyperslab
namespace ShapeText

def isBracket (c : Char) : Bool := c == '(' || c == ')' || c == '[' || c == ']'

/-- The numbers of the parts between commas that are not blank. -/
def numbers? (cs : List Char) : Option (List Int) :=
  ((Text.splitAt ',' cs).filter fun part => !(Text.trim part).isEmpty).mapM Text.numeral?

/-- The extents that a text lists; they may still be negative. -/
def read (text : String) : Except Fault (List Int) :=
  match numbers? (Text.trimWhile isBracket (Text.trim text.toList)) with
  | some dims => .ok dims
  | none => .error (.shapeNumeral (String.ofList (Text.quote text.toList)))

end ShapeText
end Hyperslab
