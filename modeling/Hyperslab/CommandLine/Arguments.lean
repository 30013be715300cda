import Hyperslab.Text.Blank
import Hyperslab.Text.Digit

/-!
# Arguments of a command

An option is written out or cut short as long as only one option starts that way, and its value
follows after an equals sign or as the next argument.  What starts with a dash is no value unless it
is a lone dash, looks like a negative number or holds a blank; after two dashes nothing is an
option.
-/
namespace Hyperslab
namespace CommandLine

structure OptionSpec where
  name : String
  takesValue : Bool
  deriving DecidableEq, Repr

/-- What an argument is, on its own. -/
inductive Argument where
  | plain (s : String)
  /-- An option, with the text after its equals sign. -/
  | option (spec : OptionSpec) (value : Option String)
  | unknown
  /-- The start of more than one option. -/
  | ambiguous
  /-- Two dashes. -/
  | dashes
  deriving DecidableEq, Repr

/-- What happens as the arguments are taken in, from left to right. -/
inductive Event where
  | flag (name : String)
  | setting (name value : String)
  | positional (s : String)
  | dashes
  | unknown
  /-- The arguments cannot be taken in any further. -/
  | broken
  deriving DecidableEq, Repr

namespace Argument

/-- Digits, a point among or before them, and nothing else; a line feed may follow. -/
def isNumber (cs : List Char) : Bool :=
  let isDigit (c : Char) : Bool := (Text.digit? c).isSome
  let whole := cs.takeWhile isDigit
  match cs.dropWhile isDigit with
  | [] | ['\n'] => !whole.isEmpty
  | '.' :: rest =>
    !(rest.takeWhile isDigit).isEmpty &&
      (rest.dropWhile isDigit == [] || rest.dropWhile isDigit == ['\n'])
  | _ => false

/-- The name and the value of an argument with an equals sign. -/
def parts (s : String) : String × Option String :=
  let cs := s.toList
  match cs.dropWhile (· != '=') with
  | [] => (s, none)
  | _ :: value => (String.ofList (cs.takeWhile (· != '=')), some (String.ofList value))

/-- The options that an argument may be short for.  Only options with two dashes can be cut short;
of one with a single dash, what follows its letter counts for nothing. -/
def candidates (options : List OptionSpec) (s : String) : List (OptionSpec × Option String) :=
  match s.toList with
  | '-' :: '-' :: _ =>
    let (name, value) := parts s
    (options.filter fun o => name.toList.isPrefixOf o.name.toList).map fun o => (o, value)
  | '-' :: c :: _ =>
    (options.filter fun o => o.name == String.ofList ['-', c]).map fun o => (o, none)
  | _ => []

/-- What an argument is, given the options there are. -/
def classify (options : List OptionSpec) (s : String) : Argument :=
  match s.toList with
  | '-' :: body =>
    match options.find? (·.name == s) with
    | some o => option o none
    | none =>
      if body.isEmpty then plain s
      else
        let (name, value) := parts s
        match value, options.find? (·.name == name) with
        | some v, some o => option o (some v)
        | _, _ =>
          match candidates options s with
          | [(o, value)] => option o value
          | _ :: _ :: _ => ambiguous
          | [] => if isNumber body || s.contains ' ' then plain s else unknown
  | _ => plain s

/-- What the arguments are; after two dashes all are plain. -/
def classifyAll (options : List OptionSpec) : List String → List Argument
  | [] => []
  | s :: rest =>
    if s = "--" then dashes :: rest.map plain else classify options s :: classifyAll options rest

end Argument

namespace Event

/-- What happens as classified arguments are taken in. -/
def ofArguments : List Argument → List Event
  | [] => []
  | .plain s :: rest => positional s :: ofArguments rest
  | .dashes :: rest => dashes :: ofArguments rest
  | .unknown :: rest => unknown :: ofArguments rest
  | .ambiguous :: _ => [broken]
  | .option o none :: rest =>
    if o.takesValue then
      match rest with
      | .plain v :: rest => setting o.name v :: ofArguments rest
      | _ => [broken]
    else flag o.name :: ofArguments rest
  | .option o (some v) :: rest =>
    if o.takesValue then setting o.name v :: ofArguments rest else [broken]

/-- What happens as arguments are taken in.  An ambiguous one is told before anything happens. -/
def ofStrings (options : List OptionSpec) (args : List String) : List Event :=
  let classified := Argument.classifyAll options args
  if classified.contains .ambiguous then [broken] else ofArguments classified

end Event

end CommandLine
end Hyperslab
