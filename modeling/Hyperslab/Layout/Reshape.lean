import Hyperslab.Layout

/-!
# Another shape for the same cells

Axes that are walked like one axis form a run, and a new shape fits when its extents divide the runs
in order.  Extents of one never stand in the way, so axes of extent one can always be put in and
taken out.
-/
namespace Hyperslab
namespace Layout

/-- The runs of axes, without the axes of extent one. -/
def runs : List Dim → List Dim
  | [] => []
  | d :: rest =>
    if d.extent = 1 then runs rest
    else match runs rest with
      | [] => [d]
      | r :: more =>
        if d.stride = r.extent * r.stride then ⟨d.extent * r.extent, r.stride⟩ :: more
        else d :: r :: more

/-- Cuts runs into axes with the given extents. -/
def split : Shape → List Dim → Option (List Dim)
  | [], [] => some []
  | [], _ :: _ => none
  | n :: rest, [] => if n = 1 then (split rest []).map (⟨1, 1⟩ :: ·) else none
  | n :: rest, r :: more =>
    if n = 1 then (split rest (r :: more)).map (⟨1, r.extent * r.stride⟩ :: ·)
    else if n = r.extent then (split rest more).map (⟨n, r.stride⟩ :: ·)
    else if n ∣ r.extent then
      let left := r.extent / n
      (split rest (⟨left, r.stride⟩ :: more)).map (⟨n, left * r.stride⟩ :: ·)
    else none

/-- The layout of the same elements, in the same order and in the same cells, with another shape of
as many elements. -/
def reshape? (l : Layout) (s : Shape) : Option Layout :=
  if s = l.shape then some l
  else if l.size = 0 then some ⟨l.offset, rowMajorDims s⟩
  else (split s (runs l.dims)).map (⟨l.offset, ·⟩)

end Layout
end Hyperslab
