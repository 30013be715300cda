import Hyperslab.CommandLine
import Hyperslab.Encoding

/-!
# The program

Files and streams around `CommandLine.run`: the file that a request reads is read beforehand, and
the files that the answer adds or changes are written afterwards.
-/
namespace Hyperslab
namespace Program

/-- The file that arguments ask to read. -/
def inputPath? (args : List String) : Option String :=
  match CommandLine.Request.read args with
  | .ok (.slice input _ _ _ _) => some input
  | _ => none

/-- The content of a file, or nothing where there is no file. -/
def readFile? (path : String) : IO (Option FileContent) := do
  try
    return some (.ofBytes (← IO.FS.readBinFile path).toList)
  catch
    | .noFileOrDirectory .. => return none
    | e => throw e

def readFiles (path : Option String) : IO Files := do
  let some path := path | return []
  let some content ← readFile? path | return []
  return [(path, content)]

/-- Writes a file, and makes the directory that it is in. -/
def writeFile (path : String) (content : FileContent) : IO Unit := do
  match Path.parents path with
  | parent :: _ => if parent ≠ "" then IO.FS.createDirAll parent
  | [] => pure ()
  IO.FS.writeBinFile path content.toBytes.toByteArray

/-- Prints and writes what an answer says, and gives the exit code. -/
def deliver (before : Files) (o : CommandLine.Outcome) : IO UInt32 := do
  for (path, content) in o.files do
    if before.find? path ≠ some content then writeFile path content
  IO.print o.stdout
  IO.eprint o.diagnostics
  match o.ending with
  | .exit code => return UInt32.ofNat code
  | .complaint text => IO.eprintln text
  | .fault f => IO.eprintln f.message
  return 1

end Program
end Hyperslab

open Hyperslab in
def main (args : List String) : IO UInt32 := do
  let files ← Program.readFiles (Program.inputPath? args)
  let start ← IO.monoNanosNow
  let outcome ← IO.lazyPure fun _ => CommandLine.run args files
  let finish ← IO.monoNanosNow
  Program.deliver files (outcome.stamp (finish - start))
