import Hyperslab.Entry
import Hyperslab.Fault

/-!
# Dense specifications

Entries are gone through once, from left to right, to find out what is asked of each axis of the
input.  An ellipsis leaves whole all axes that the entries behind it leave over; how many of those
take an axis is known from their number and the number of new axes among them.  Along with the entry
of each axis goes a list of what stands at each place of the result.
-/
namespace Hyperslab

/-- What stands at a place: an axis of the input, by its number, or a new axis.  An axis that a
single index is taken from has its place too. -/
inductive Gather where
  | axis (i : Nat)
  | inserted
  deriving DecidableEq, Repr

/-- A specification with one entry for each axis, as far as it is built. -/
structure Dense where
  /-- What is asked of each axis; an axis without an entry so far is taken whole. -/
  entries : List Entry
  gather : List Gather
  /-- The number of the axis that the next entry takes. -/
  next : Nat
  deriving DecidableEq, Repr

namespace Entry

/-- Entries with an ellipsis at the end if they have none. -/
def closed (es : List Entry) : List Entry :=
  if es.contains ellipsis then es else es ++ [ellipsis]

/-- The number of new axes behind the ellipsis. -/
def insertedAfter (es : List Entry) : Nat := (es.dropWhile (· != ellipsis)).count newAxis

end Entry

namespace Dense

/-- No entry has been bound to any of the axes. -/
def unbound (rank : Nat) : Dense := ⟨List.replicate rank .full, [], 0⟩

/-- Binds the next axis. -/
def bind (d : Dense) (e : Entry) : Dense where
  entries := d.entries.set d.next e
  gather := d.gather ++ [.axis d.next]
  next := d.next + 1

def insert (d : Dense) : Dense := { d with gather := d.gather ++ [.inserted] }

/-- Goes on to axis `stop`, if it is not there yet, past axes that stay whole. -/
def skipTo (d : Dense) (stop : Int) : Dense :=
  let count := (stop - d.next).toNat
  { d with gather := d.gather ++ (List.range' d.next count).map .axis, next := d.next + count }

/-- Entry `i` of `count` entries, `inserted` of which are new axes behind the ellipsis.  No entry is
bound beyond the last axis. -/
def add (rank count inserted : Nat) (d : Dense) : Entry × Nat → Except Fault Dense
  | (.ellipsis, i) =>
    .ok (d.skipTo (min ((rank : Int) - ((count : Int) - i) + 1 + inserted) rank))
  | (.newAxis, _) => .ok d.insert
  | (e, _) => if d.next = rank then .error (.tooManyEntries d.next) else .ok (d.bind e)

/-- The entries of the axes of an input. -/
def ofEntries (rank : Nat) (es : List Entry) : Except Fault Dense :=
  es.zipIdx.foldlM (add rank es.length (Entry.insertedAfter es)) (unbound rank)

end Dense

end Hyperslab
