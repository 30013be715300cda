import Hyperslab.Engine
import Hyperslab.View.Setting

/-!
# Sessions: named arrays that share memory, and one engine

A session is worked on in steps.  A new value for a name takes the place of the old one; the cells
of an old array stay, as other arrays may still have them.  A name may also stand for a value that
is no array.
-/
namespace Hyperslab

structure Session where
  config : Config := {}
  workspace : Workspace := {}
  named : List (String × Operand) := []

/-- A step of a session.  A fault leaves the session as it was when the fault arose. -/
abbrev Step := EStateM Fault Session

namespace Session

def find? (s : Session) (name : String) : Except Fault Operand :=
  match s.named.lookup name with
  | some o => .ok o
  | none => .error .unknownName

/-- The named arrays. -/
def arrays (s : Session) : List (String × View) :=
  s.named.filterMap fun (name, o) => o.view?.map fun v => (name, v)

/-- The other names of arrays that have a cell in common with a named one, in order. -/
def sharing (s : Session) (name : String) : Except Fault (List (String × View)) := do
  match (← s.find? name).view? with
  | none => return []
  | some v =>
    let others := s.arrays.filter fun (n, w) => n != name && v.shares w
    return others.mergeSort fun a b => decide (a.1 ≤ b.1)

end Session

namespace Step

/-! ## Names -/

/-- What a name stands for. -/
def operand (name : String) : Step Operand := do ofExcept ((← get).find? name)

/-- The array that a name stands for. -/
def array (name : String) : Step View := do
  match (← operand name).view? with
  | some v => return v
  | none => throw .notAnArray

/-- Lets a name stand for something. -/
def define (name : String) (o : Operand) : Step Unit :=
  modify fun s => { s with named := (name, o) :: s.named.filter (·.1 != name) }

/-! ## Memory and log -/

/-- A call as part of a step. -/
def call {α : Type} (x : Call α) : Step α := fun s =>
  match x s.workspace with
  | .ok a w => .ok a { s with workspace := w }
  | .error e w => .error e { s with workspace := w }

def onStore {α : Type} (x : Memory α) : Step α := call (Workspace.onStore x)

/-- A new engine, with an empty log. -/
def replaceEngine (c : Config) : Step Unit :=
  modify fun s => { s with config := c, workspace := { s.workspace with log := [] } }

/-! ## Arrays -/

def view (name source : String) (key : Value) : Step Unit := do
  let v ← array source
  define name (← ofExcept (v.index (← get).workspace.store key))

def transpose (name source : String) (order : List Int) : Step Unit := do
  define name (.array (← ofExcept ((← array source).transpose order)))

def setElement (name : String) (place : List Int) (value : Value) : Step Unit := do
  let v ← array name
  onStore (v.setElement place value)

/-! ## The engine -/

def resolve (shape spec : Value) : Step Resolution := do
  call ((← get).config.resolve shape spec)

def slice (name : String) (operand : Operand) (spec : Value) : Step Unit := do
  define name (.array (← call ((← get).config.slice operand spec)))

def grad (name : String) (shape : Operand) (spec : Value) (dy : Operand) : Step Unit := do
  define name (.array (← call ((← get).config.grad shape spec dy)))

def assign (name : String) (spec : Value) (value : Operand) : Step Unit := do
  let target ← operand name
  call ((← get).config.assign target spec value)

end Step

end Hyperslab
