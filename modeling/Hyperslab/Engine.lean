import Hyperslab.Config
import Hyperslab.Copy
import Hyperslab.Log
import Hyperslab.Selection
import Hyperslab.Walk

/-!
# The engine: extraction, gradients and assignment

A call takes a configuration and loosely typed arguments, and works on the memory and the log.  It
adds an entry to the log as its last step, so a call that fails adds none.  All that can be refused
is refused before an existing cell is written.
-/
namespace Hyperslab

/-- Memory together with the log of calls. -/
structure Workspace where
  store : Store := {}
  log : Log := []
  deriving DecidableEq, Repr

/-- A call.  A fault leaves memory and log as they were when the fault arose. -/
abbrev Call := EStateM Fault Workspace

namespace Workspace

/-- A computation on memory as part of a call. -/
def onStore {α : Type} (x : Memory α) : Call α := fun w =>
  match x w.store with
  | .ok a s => .ok a { w with store := s }
  | .error e s => .error e { w with store := s }

end Workspace

open Workspace (onStore)

/-- The shape that an operand stands for: a sequence of whole numbers, or an array of them with one
axis. -/
def Operand.shape (s : Store) : Operand → Except Fault Shape
  | .value (.list items) => Shape.ofValue (.list items)
  | .value (.tuple items) => Shape.ofValue (.tuple items)
  | .value _ => .error (.shapeRank [])
  | .array v => do
    let v ← v.ofKind .host
    if v.layout.rank ≠ 1 then throw (.shapeRank v.shape)
    if v.size ≠ 0 ∧ ¬ v.type.isWhole then throw (.shapeType v.type.name)
    Shape.ofInts (v.codes s)

namespace Config

/-- The route of an extraction.  The strided walk is refused here already when it is needed and its
rank is above the cap. -/
def route (c : Config) (b : Backend) (source : View) (r : Resolution) : Except Fault Route := do
  let rank := r.axes.length
  if rank = 0 then return .identity
  let route :=
    if c.fastPaths then Route.choose r source.layout.isContiguous b.rowCopies else .walk
  if route = .walk ∧ r.size ≠ 0 then
    let _ ← Walker.ofRank rank c.maxRank
  return route

/-- The entry of a call, if it returns. -/
def entry (c : Config) (kind : CallKind) (r : Resolution) (x : Option Execution) : LogEntry where
  kind
  inputShape := r.inputShape
  processingShape := r.processingShape
  finalShape := r.finalShape
  execution := x
  duration := if c.timings then some 0 else none

/-- Adds an entry to the log. -/
def record (c : Config) (kind : CallKind) (r : Resolution) (x : Option Execution) : Call Unit :=
  modify fun w => { w with log := w.log ++ [c.entry kind r x] }

/-- Resolves a selection and changes nothing but the log. -/
def resolve (c : Config) (shape spec : Value) : Call Resolution := do
  let s ← ofExcept (Shape.ofValue shape)
  let r ← ofExcept (Resolution.ofValue s spec)
  c.record .resolve r none
  return r

/-- The selected elements of an array, by a given route. -/
def extract (c : Config) (source : View) (r : Resolution) : Route → Memory View
  | .identity => source.copyIdentity r c.zeroCopy
  | .lead => source.copyLead r c.zeroCopy
  | route =>
    if r.size = 0 then View.zeros source.kind source.type r.finalShape
    else match route with
      | .rows => source.copyPlane r none
      | _ => do (← r.walk source .extract none c.maxRank).reshape r.finalShape

/-- The elements of an operand that a specification selects. -/
def slice (c : Config) (operand : Operand) (spec : Value) : Call View := do
  let b ← ofExcept (Backend.choose c.backend c.device [operand])
  let source ← onStore (operand.toView b.kind)
  let r ← ofExcept (Resolution.ofValue source.shape spec)
  let route ← ofExcept (c.route b source r)
  let out ← onStore (c.extract source r route)
  c.record .slice r (some ⟨route, b, source.type.itemSize⟩)
  return out

/-- The route that a write is logged with. -/
def writeRoute (r : Resolution) : Route := if r.axes.isEmpty then .identity else .walk

/-- Writes the elements of an array to the elements of another one that a resolution selects. -/
def write (c : Config) (target : View) (r : Resolution) (mode : WalkMode) (values : View) :
    Memory Unit := do
  if r.axes.isEmpty then target.writeAll values
  else if r.size ≠ 0 then
    let _ ← r.walk target mode (some values) c.maxRank

/-- The gradient of an extraction: an array of the given shape that has the elements of `dy` where
the specification selects and zeros elsewhere. -/
def grad (c : Config) (shape : Operand) (spec : Value) (dy : Operand) : Call View := do
  let input ← ofExcept (shape.shape (← get).store)
  let b ← ofExcept (Backend.choose c.backend c.device [dy])
  let dy ← onStore (dy.toView b.kind)
  let r ← ofExcept (Resolution.ofValue input spec)
  if dy.shape ≠ r.finalShape then throw (.gradientShape dy.shape r.finalShape)
  let rank := r.axes.length
  if rank ≠ 0 ∧ r.size ≠ 0 then
    let _ ← ofExcept (Walker.ofRank rank c.maxRank)
  let out ← onStore (View.zeros b.kind dy.type input)
  onStore (c.write out r .gradient dy)
  c.record .grad r (some ⟨writeRoute r, b, dy.type.itemSize⟩)
  return out

/-- Writes a value to the elements of an array that a specification selects.  The value must have
the selected shape. -/
def assign (c : Config) (target : Operand) (spec : Value) (value : Operand) : Call Unit := do
  let b ← ofExcept (Backend.choose c.backend c.device [target])
  let ref ← ofExcept (b.target target)
  let r ← ofExcept (Resolution.ofValue ref.shape spec)
  let values ← onStore (value.toViewOf b.kind ref.type)
  if values.shape ≠ r.finalShape then throw (.valueShape values.shape r.finalShape)
  onStore (c.write ref r .assign values)
  c.record .assign r (some ⟨writeRoute r, b, ref.type.itemSize⟩)

end Config

end Hyperslab
