import Hyperslab.Fault
import Hyperslab.Layout
import Hyperslab.Number.Power

/-!
# Memory: buffers of cells that arrays share

A cell holds the code of one element.  A buffer is never removed, and only a write changes a cell,
so what an operation leaves alone can be said place by place.  How many bytes there are for one
array is fixed from the start.
-/
namespace Hyperslab

structure Store where
  buffers : Array (Array Int) := #[]
  /-- The most bytes that a new array can take. -/
  limit : Nat := Number.twoTo 40
  deriving DecidableEq, Repr

/-- A computation on memory.  A fault leaves the memory as it was when the fault arose. -/
abbrev Memory := EStateM Fault Store

namespace Store

/-- The cell at a place of a buffer; zero where there is none. -/
def read (s : Store) (buffer : Nat) (place : Int) : Int :=
  if place < 0 then 0 else ((s.buffers[buffer]?.getD #[])[place.toNat]?).getD 0

def write (s : Store) (buffer : Nat) (place code : Int) : Store :=
  if place < 0 then s
  else { s with buffers := s.buffers.modify buffer fun cells =>
    cells.setIfInBounds place.toNat code }

/-- The number of cells in a buffer. -/
def extent (s : Store) (buffer : Nat) : Nat := (s.buffers[buffer]?.getD #[]).size

/-- A buffer of `count` zeros, behind the ones there are. -/
def grow (s : Store) (count : Nat) : Store :=
  { s with buffers := s.buffers.push (Array.replicate count 0) }

/-- The cells at the given places. -/
def gather (s : Store) (buffer : Nat) (places : List Int) : List Int :=
  places.map (s.read buffer)

/-- Writes codes to places, one after the other. -/
def scatter (s : Store) (buffer : Nat) (places codes : List Int) : Store :=
  (places.zip codes).foldl (fun s (p, c) => s.write buffer p c) s

/-- Copies cells to places of another buffer, or of the same one, one after the other. -/
def move (s : Store) (source : Nat) (sources : List Int) (target : Nat) (targets : List Int) :
    Store :=
  (sources.zip targets).foldl (fun s (p, q) => s.write target q (s.read source p)) s

end Store

end Hyperslab
