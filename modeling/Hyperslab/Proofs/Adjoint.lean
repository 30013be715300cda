import Hyperslab.Proofs.Gradient
import Mathlib.Algebra.BigOperators.Group.Finset.Basic

/-!
# Slices and gradients are adjoint

The elements of a slice are the elements of its source at the indices selected, and
a gradient has `dy` at the same indices and zeros elsewhere.  So the products of a
slice with `dy` are those of the source with the gradient, up to products with zero.
-/

namespace Hyperslab

/-- Terms that are zero outside a part of a list add up over that part. -/
theorem sum_map_of_subset {α : Type} [DecidableEq α] {part whole : List α} {f : α → Int}
    (hpart : part.Nodup) (hwhole : whole.Nodup) (hsub : ∀ a ∈ part, a ∈ whole)
    (hzero : ∀ a ∈ whole, a ∉ part → f a = 0) : (part.map f).sum = (whole.map f).sum := by
  rw [← List.sum_toFinset f hpart, ← List.sum_toFinset f hwhole]
  apply Finset.sum_subset
  · intro a ha
    exact List.mem_toFinset.mpr (hsub a (List.mem_toFinset.mp ha))
  · intro a ha hn
    apply hzero a (List.mem_toFinset.mp ha)
    intro hp
    exact hn (List.mem_toFinset.mpr hp)

namespace View

/-- The sum of the products of the elements of two arrays of one shape, each as it stands in a
memory of its own.  The code of a whole number is the number, so nothing wraps around. -/
def dot (v : View) (s : Store) (u : View) (t : Store) : Int :=
  (v.shape.indices.map fun index => v.elementAt s index * u.elementAt t index).sum

theorem dot_eq_codes {v u : View} (h : v.shape = u.shape) (s t : Store) :
    v.dot s u t = (List.zipWith (· * ·) (v.codes s) (u.codes t)).sum := by
  rw [codes_eq_map, codes_eq_map, ← h, List.zipWith_map, List.zipWith_self]
  rfl

end View

namespace Config

variable {c d : Config} {x dy out grad : View} {shape : Operand} {spec : Value}
  {w w₁ w' w₂ : Workspace}

/-- The sum of the products of a slice and `dy` is that of its source and the gradient, whatever the
routes that the two calls take. -/
theorem slice_grad_adjoint (hx : x.Within w.store) (hdy : dy.Within w'.store)
    (hshape : shape.shape w'.store = .ok x.shape)
    (hslice : c.slice (.array x) spec w = .ok out w₁)
    (hgrad : d.grad shape spec (.array dy) w' = .ok grad w₂) :
    out.shape = dy.shape ∧ grad.shape = x.shape ∧ out.type = x.type ∧ grad.type = dy.type ∧
      out.dot w₁.store dy w'.store = x.dot w.store grad w₂.store := by
  obtain ⟨r, hr, _, hout⟩ := slice_shows hx hslice
  obtain ⟨input, _, r', _, s, hinput, _, _, hr', hfinal, hext, hzeros, hvalues, hwrites⟩ :=
    grad_eq_ok hdy hgrad
  obtain rfl : input = x.shape := Except.ok.inj (hinput.symm.trans hshape)
  obtain rfl : r' = r := Except.ok.inj (hr'.symm.trans hr)
  obtain ⟨hfits, hfit⟩ := Resolution.ofValue_fits hr
  have hsame : out.shape = dy.shape := hout.shape_eq.trans hfinal.symm
  have hgshape : grad.shape = x.shape := hzeros.shape_eq
  refine ⟨hsame, hgshape, hout.type_eq, hzeros.type_eq, ?_⟩
  have hwritten : dy.codes w'.store = r'.selected.map (grad.elementAt w₂.store) := by
    rw [← View.codes_extends hdy hext, ← hvalues]
    exact hwrites.elements.1.symm
  have hsub : ∀ index ∈ r'.selected, index ∈ x.shape.indices := by
    intro index hindex
    rw [← hfit]
    exact Resolution.mem_of_mem_selected hfits hindex
  have hzero : ∀ index ∈ x.shape.indices, index ∉ r'.selected →
      x.elementAt w.store index * grad.elementAt w₂.store index = 0 := by
    intro index hindex hn
    rw [hwrites.elements.2 index (hgshape.symm ▸ hindex) hn, View.zeros_elementAt hzeros hindex,
      Int.mul_zero]
  rw [View.dot_eq_codes hsame, hout.codes_eq, hwritten, List.zipWith_map, List.zipWith_self]
  exact sum_map_of_subset (Resolution.nodup_selected hfits) x.shape.nodup_indices hsub hzero

end Config

namespace Sample

theorem slice_grad_adjoint_reversed :
    reversed.Within cells.store ∧ pair.Within cells.store ∧
    ∃ out w₁ grad w₂, ({} : Config).slice (.array reversed) spec cells = .ok out w₁ ∧
      ({} : Config).grad (.value (.list [.whole 2, .whole 3])) spec (.array pair) cells =
        .ok grad w₂ ∧
      out.dot w₁.store pair cells.store = reversed.dot cells.store grad w₂.store := by
  have hreversed : reversed.Within cells.store := by decide
  have hpair : pair.Within cells.store := by decide
  obtain ⟨out, w₁, hslice⟩ := returns_of_succeeds
    (show succeeds (({} : Config).slice (.array reversed) spec cells) = true by decide)
  obtain ⟨grad, w₂, hgrad⟩ := returns_of_succeeds
    (show succeeds (({} : Config).grad (.value (.list [.whole 2, .whole 3])) spec (.array pair)
      cells) = true by decide)
  exact ⟨hreversed, hpair, out, w₁, grad, w₂, hslice, hgrad,
    (Config.slice_grad_adjoint hreversed hpair rfl hslice hgrad).2.2.2.2⟩

end Sample

end Hyperslab
