import Hyperslab.Resolution
import Hyperslab.View

/-!
# Extractions in bulk

An extraction that takes everything is another shape of the same cells, and a run of the first axis
of a contiguous array is a run of its memory; both can be left as windows or copied.  Rows of a
plane are copied one by one, each as a run.
-/
namespace Hyperslab
namespace View

/-- A window is copied unless it may stay one. -/
def settle (v : View) (zeroCopy : Bool) : Memory View := if zeroCopy then return v else v.copy

/-- All elements in the final shape. -/
def copyIdentity (v : View) (r : Resolution) (zeroCopy : Bool) : Memory View := do
  (← v.reshape r.finalShape).settle zeroCopy

/-- The elements along one axis.  A tensor that would have to be copied for it is refused. -/
def flat (v : View) : Memory View := do
  if v.kind = .tensor ∧ (v.layout.reshape? [v.size]).isNone then throw .tensorReshape
  v.reshape [v.size]

/-- The elements from number `first` to before number `last`; a negative number counts from the
end. -/
def segment (v : View) (first last : Int) : View :=
  let i := Interval.ofBounds v.size (some first) (some last) 1
  v.withLayout (v.layout.window [i] [i.size])

/-- A run of the first axis with every other axis whole. -/
def copyLead (v : View) (r : Resolution) (zeroCopy : Bool) : Memory View := do
  match r.axes with
  | [] => throw .noLeadAxis
  | lead :: rest =>
    let inner : Int := Shape.size (rest.map (·.extent))
    let run := (← v.flat).segment (lead.interval.start * inner) (lead.interval.stop * inner)
    (← run.reshape r.finalShape).settle zeroCopy

/-- A row of an array with two axes; a negative number counts from the last row. -/
def row (v : View) (i : Int) : Except Fault View :=
  match v.layout.dims with
  | [rows, cols] =>
    let i := if i < 0 then rows.extent + i else i
    if 0 ≤ i ∧ i < rows.extent then
      .ok (v.withLayout ⟨v.layout.offset + i * rows.stride, [cols]⟩)
    else .error .rowIndex
  | _ => .error .rowPair

/-- Copies a run of a row to a row.  A run of one element fills the whole row. -/
def copyRow (target : View) (i : Int) (source : View) (j first last : Int) : Memory Unit := do
  if target.kind = .tensor then throw .rowCopyOnTensor
  let out ← ofExcept (target.row i)
  let run := (← ofExcept (source.row j)).segment first last
  if !target.writeable then throw .cellsReadOnly
  if !source.type.sameKind target.type then throw .castRefused
  let codes := (run.codes (← get)).map (source.type.convert target.type)
  match codes with
  | [code] => modify (out.fill (List.replicate out.size code))
  | codes =>
    if codes.length ≠ out.size then throw .rowLength
    modify (out.fill codes)

/-- Copies rows from number `j` on to rows from number `i` on. -/
def copyRows (target source : View) (first last : Int) : Nat → Int → Int → Memory Unit
  | 0, _, _ => return
  | count + 1, i, j => do
    copyRow target i source j first last
    copyRows target source first last count (i + 1) (j + 1)

/-- The rows and columns of a plane.  A dropped axis and a new one can keep two axes and change
their order, so rows are written through the processing shape. -/
def copyPlane (v : View) (r : Resolution) (out : Option View) : Memory View := do
  match r.intervals with
  | [rows, cols] =>
    let out ← match out with
      | some w => pure w
      | none => View.zeros v.kind v.type r.finalShape
    let target ← out.reshape r.processingShape
    copyRows target v cols.start cols.stop (rows.stop - rows.start).toNat 0 rows.start
    return out
  | _ => throw .rowPair

end View
end Hyperslab
