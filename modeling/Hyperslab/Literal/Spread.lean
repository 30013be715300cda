import Hyperslab.Layout
import Hyperslab.Literal

/-!
# Elements spread over a shape

An array stands for one of more axes or longer ones: along an axis of extent one, and along an axis
that it does not have, it is the same everywhere.
-/
namespace Hyperslab
namespace Layout

/-- A row-major array of shape `s`, read in the order of the elements of another shape.  Axes of
extent one in front do not count. -/
def spread? (s target : Shape) : Option Layout :=
  let s := s.drop (min (s.length - target.length) (s.takeWhile (· == 1)).length)
  let padded := List.replicate (target.length - s.length) 1 ++ s
  if padded.length = target.length ∧ (padded.zip target).all (fun (a, b) => a == b || a == 1) then
    some ⟨0, List.zipWith (fun (d : Dim) n => ⟨n, if d.extent = n then d.stride else 0⟩)
      (rowMajorDims padded) target⟩
  else none

end Layout

namespace Literal

/-- The codes of the elements, spread over a shape. -/
def spread? (l : Literal) (target : Shape) : Option (List Int) :=
  (Layout.spread? l.shape target).map fun layout =>
    layout.places.map fun p => l.codes[p.toNat]?.getD 0

end Literal
end Hyperslab
