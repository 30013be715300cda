import Hyperslab.Backend

/-!
# Configurations

A configuration is given with loosely typed switches and brought to one form; the fields are
checked in order, and the first that is refused is told.
-/
namespace Hyperslab

/-- The rank up to which the strided walk goes, unless a configuration says otherwise. -/
def defaultMaxRank : Nat := 6

structure Config where
  backend : BackendChoice := .auto
  device : String := "auto"
  /-- The rank up to which the strided walk goes. -/
  maxRank : Nat := defaultMaxRank
  /-- Whether routes cheaper than the strided walk are taken. -/
  fastPaths : Bool := true
  /-- Whether an extraction may be a window onto the cells of its source. -/
  zeroCopy : Bool := false
  /-- Whether calls are timed. -/
  timings : Bool := true
  deriving DecidableEq, Repr

/-- A configuration as it is given. -/
structure LooseConfig where
  backend : Value := .text "auto"
  device : Value := .text "auto"
  maxRank : Value := .whole defaultMaxRank
  fastPaths : Value := .boolean true
  zeroCopy : Value := .boolean false
  timings : Value := .boolean true

namespace LooseConfig

/-- A text, where anything that counts as false stands for a default. -/
def textOr (default : String) (v : Value) : Except Fault String := do
  if ← v.truth then
    match v with
    | .text s => return s
    | _ => throw .notText
  else return default

def normalize (c : LooseConfig) : Except Fault Config := do
  let backendText ← textOr "auto" c.backend
  let backend ← match BackendChoice.ofName? (String.ofList (Text.lower backendText.toList)) with
    | some b => .ok b
    | none => .error (.configBackend backendText)
  let device ← Device.normalize (← textOr "" c.device)
  let maxRank ← c.maxRank.toWhole
  if maxRank < 1 then throw .configRank
  return {
    backend, device
    maxRank := maxRank.toNat
    fastPaths := ← c.fastPaths.truth
    zeroCopy := ← c.zeroCopy.truth
    timings := ← c.timings.truth }

end LooseConfig

end Hyperslab
