import Hyperslab.CommandLine.Arguments
import Hyperslab.Files
import Hyperslab.ShapeText

/-!
# Requests on the command line

There are two commands: one resolves a specification against a shape, the other extracts from an
array in a file.  Arguments are taken in from left to right, and the first that cannot be taken in
decides the complaint; what is missing or left over is told at the end.
-/
namespace Hyperslab
namespace CommandLine

inductive Request where
  | resolve (shape : List Int) (spec : String) (json : Bool)
  | slice (input spec : String) (out : Option String) (kind : ArrayKind) (explain : Bool)
  deriving DecidableEq, Repr

/-- Why there is no request. -/
inductive Refusal where
  /-- The usage is asked for. -/
  | help
  /-- The arguments do not fit the usage. -/
  | usage
  /-- A shape that cannot be read. -/
  | shape (complaint : String)
  deriving DecidableEq, Repr

def helpOption : List OptionSpec := [⟨"-h", false⟩, ⟨"--help", false⟩]

def isHelp (name : String) : Bool := name == "-h" || name == "--help"

/-! ## Resolving -/

structure ResolveArguments where
  shape : Option (List Int) := none
  spec : Option String := none
  json : Bool := false
  /-- Whether something is left over. -/
  extra : Bool := false

namespace ResolveArguments

def options : List OptionSpec :=
  helpOption ++ [⟨"--shape", true⟩, ⟨"--spec", true⟩, ⟨"--json", false⟩]

def take (a : ResolveArguments) : Event → Except Refusal ResolveArguments
  | .broken => .error .usage
  | .flag name => if isHelp name then .error .help else .ok { a with json := true }
  | .setting name value =>
    if name = "--spec" then .ok { a with spec := some value }
    else match ShapeText.read value with
      | .ok dims => .ok { a with shape := some dims }
      | .error e => .error (.shape e.message)
  | .positional _ | .unknown | .dashes => .ok { a with extra := true }

def finish (a : ResolveArguments) : Except Refusal Request :=
  match a.shape, a.spec, a.extra with
  | some shape, some spec, false => .ok (.resolve shape spec a.json)
  | _, _, _ => .error .usage

def read (args : List String) : Except Refusal Request := do
  (← (Event.ofStrings options args).foldlM take {}).finish

end ResolveArguments

/-! ## Extracting -/

structure SliceArguments where
  input : Option String := none
  spec : Option String := none
  out : Option String := none
  kind : ArrayKind := .host
  explain : Bool := false
  /-- Whether something is left over. -/
  extra : Bool := false
  /-- Whether two dashes wait for what they stand before. -/
  waiting : Bool := false
  /-- Whether the last argument was the input. -/
  justRead : Bool := false

namespace SliceArguments

def options : List OptionSpec :=
  helpOption ++ [⟨"--spec", true⟩, ⟨"--out", true⟩, ⟨"--backend", true⟩, ⟨"--explain", false⟩]

def backends : List (String × ArrayKind) := [("numpy", .host), ("torch", .tensor)]

/-- Takes in an event.  Two dashes belong to the input when they stand next to it. -/
def take (a : SliceArguments) (e : Event) : Except Refusal SliceArguments :=
  let b := { a with justRead := false }
  match e with
  | .broken => .error .usage
  | .flag name => if isHelp name then .error .help else .ok { b with explain := true }
  | .setting name value =>
    if name = "--spec" then .ok { b with spec := some value }
    else if name = "--out" then .ok { b with out := some (Path.normalize value) }
    else match backends.lookup value with
      | some kind => .ok { b with kind }
      | none => .error .usage
  | .positional s =>
    if a.input.isNone then
      .ok { a with input := some (Path.normalize s), waiting := false, justRead := true }
    else .ok { b with extra := true }
  | .dashes =>
    if a.input.isNone then .ok { a with waiting := true }
    else if a.justRead then .ok b
    else .ok { b with extra := true }
  | .unknown => .ok { b with extra := true }

def finish (a : SliceArguments) : Except Refusal Request :=
  match a.input, a.spec, a.extra || a.waiting with
  | some input, some spec, false => .ok (.slice input spec a.out a.kind a.explain)
  | _, _, _ => .error .usage

def read (args : List String) : Except Refusal Request := do
  (← (Event.ofStrings options args).foldlM take {}).finish

end SliceArguments

/-! ## Commands -/

/-- The request that arguments make.  Options before the command are left over, unless they ask for
the usage. -/
def Request.readFrom (extra : Bool) : List String → Except Refusal Request
  | [] => .error (if extra then .usage else .help)
  | "--" :: _ => .error .usage
  | s :: rest =>
    match Argument.classify helpOption s with
    | .option _ none => .error .help
    | .option _ (some _) | .ambiguous | .dashes => .error .usage
    | .unknown => readFrom true rest
    | .plain name => do
      let request ←
        if name = "resolve" then ResolveArguments.read rest
        else if name = "slice" then SliceArguments.read rest
        else .error .usage
      if extra then .error .usage else .ok request

def Request.read (args : List String) : Except Refusal Request := readFrom false args

end CommandLine
end Hyperslab
