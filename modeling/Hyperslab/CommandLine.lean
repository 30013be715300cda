import Hyperslab.ArrayText
import Hyperslab.CommandLine.Request
import Hyperslab.Engine

/-!
# The command line

`run` answers arguments and files with what is printed, which files there are afterwards and how the
program ends.  Nothing is printed or written by a command that fails.
-/
namespace Hyperslab
namespace CommandLine

def usage : String :=
  "usage: hyperslab resolve --shape SHAPE --spec SPEC [--json]\n" ++
  "       hyperslab slice INPUT --spec SPEC [--out OUT] " ++
  "[--backend \x7bnumpy,torch\x7d] [--explain]\n"

/-- How the program ends. -/
inductive Ending where
  | exit (code : Nat)
  /-- With a text that says why, and exit code one. -/
  | complaint (text : String)
  /-- With a fault that has no wording of its own. -/
  | fault (f : Fault)
  deriving DecidableEq, Repr

structure Outcome where
  ending : Ending
  stdout : String := ""
  stderr : String := ""
  files : Files := []
  /-- The log of calls, of which an account is asked for. -/
  log : Log := []

namespace Outcome

/-- What is printed beside the answer: complaints, or the account of the calls. -/
def diagnostics (o : Outcome) : String :=
  o.stderr ++ if o.log.isEmpty then "" else o.log.text ++ "\n"

/-- Gives the duration of the last call. -/
def stamp (o : Outcome) (nanoseconds : Nat) : Outcome := { o with log := o.log.stamp nanoseconds }

end Outcome

/-! ## Resolving -/

def intsText (ns : List Nat) : String := tupleText (ns.map toString)

/-- A resolution in lines: each axis, and the two shapes. -/
def resolutionText (r : Resolution) : String :=
  let axis (a : AxisSelection × Nat) : String :=
    let i := a.1.interval
    s!"axis {a.2}: start={i.start} stop={i.stop} step={i.step}" ++
      (if a.1.dropped then " (shrink)" else "") ++ "\n"
  String.join (r.axes.zipIdx.map axis) ++
    "processing_shape=" ++ intsText r.processingShape ++ "\n" ++
    "final_shape=" ++ intsText r.finalShape ++ "\n"

/-- A resolution as data. -/
def resolutionValue (r : Resolution) : Value :=
  let shape (s : Shape) : Value := .list (s.map fun (n : Nat) => .whole n)
  let interval (i : Interval) : Value := .list [.whole i.start, .whole i.stop, .whole i.step]
  .dict [
    (.text "input_shape", shape r.inputShape),
    (.text "axes", .list (r.intervals.map interval)),
    (.text "processing_shape", shape r.processingShape),
    (.text "final_shape", shape r.finalShape),
    (.text "shrunk", .list (r.dropped.map .boolean)),
    (.text "is_identity", .boolean r.isIdentity),
    (.text "is_simple_slice", .boolean r.isSimple),
    (.text "slice_dim0", .boolean r.isLead)]

/-! ## Running -/

/-- Whether a fault is told in its own words. -/
def isTold (f : Fault) : Bool :=
  match f.kind with
  | .argument | .unimplemented | .malformed | .backend => true
  | _ => false

def Ending.ofFault (f : Fault) : Ending :=
  if isTold f then .complaint ("error: " ++ f.message) else .fault f

def failed (files : Files) (f : Fault) : Outcome := { ending := .ofFault f, files }

def runResolve (files : Files) (shape : List Int) (spec : String) (json : Bool) : Outcome :=
  match Config.resolve {} (.list (shape.map .whole)) (.text spec) {} with
  | .error f _ => failed files f
  | .ok r _ =>
    let text := if json then Json.write (resolutionValue r) ++ "\n" else resolutionText r
    { ending := .exit 0, stdout := text, files }

/-- Extracts from an array and leaves the array that a file is to hold, which is a host array. -/
def extract (a : StoredArray) (spec : String) (kind : ArrayKind) : Call StoredArray := do
  let v ← Workspace.onStore a.toView
  let out ← Config.slice { backend := .fixed kind } (.array v) (.text spec)
  if maxAxes < out.layout.rank then throw .tooManyAxes
  return .ofView out (← get).store

def runSlice (files : Files) (input spec : String) (out : Option String) (kind : ArrayKind)
    (explain : Bool) : Outcome :=
  match files.load input with
  | .error f => failed files f
  | .ok none => { ending := .complaint ("Input file not found: " ++ input), files }
  | .ok (some a) =>
    match extract a spec kind {} with
    | .error f _ => failed files f
    | .ok result w =>
      let l := result.literal
      let saved := match out with
        | some path => files.save path result
        | none => .ok files
      match saved with
      | .error f => failed files f
      | .ok saved =>
        { ending := .exit 0
          stdout :=
            if out.isNone then
              ArrayText.text { flatten := true } l.type l.shape l.codes ++ "\n"
            else ""
          files := saved
          log := if explain then w.log else [] }

def run (args : List String) (files : Files) : Outcome :=
  match Request.read args with
  | .error .help => { ending := .exit 0, stdout := usage, files }
  | .error .usage => { ending := .exit 2, stderr := usage, files }
  | .error (.shape complaint) => { ending := .exit 2, stderr := complaint, files }
  | .ok (.resolve shape spec json) => runResolve files shape spec json
  | .ok (.slice input spec out kind explain) => runSlice files input spec out kind explain

end CommandLine
end Hyperslab
