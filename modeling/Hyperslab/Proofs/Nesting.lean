import Hyperslab.Files
import Hyperslab.Proofs.Documents
import Hyperslab.Proofs.Indices

/-!
# Elements as nested lists

The lists say nothing about the axes behind an empty one, and each element stands for
itself.  So the shape that is found in them is cut after the first extent of zero, and
the elements are found in their order.
-/

namespace Hyperslab
namespace Literal

open Literal.Tensor (untilZero)

/-! ## Blocks -/

theorem flatMap_blocks {α : Type} (cs : List α) (n size : ℕ) :
    ((List.range n).flatMap fun i => (cs.drop (i * size)).take size) = cs.take (n * size) := by
  induction n with
  | zero => rw [Nat.zero_mul, List.take_zero, List.range_zero, List.flatMap_nil]
  | succ n ih =>
    rw [List.range_succ, List.flatMap_append, ih, List.flatMap_singleton, Nat.succ_mul,
      List.take_add]

/-- There are codes enough for each item along an axis. -/
theorem length_drop_block {codes : List ℤ} {n i size : ℕ} (hlen : n * size ≤ codes.length)
    (hi : i < n) : size ≤ (codes.drop (i * size)).length := by
  have := Nat.mul_le_mul_right size (show i + 1 ≤ n from hi)
  rw [Nat.add_mul] at this
  rw [List.length_drop]
  omega

/-! ## What the lists say -/

variable {t u : ElementType} {s : Shape} {codes : List ℤ} {g : ℤ → ℤ}

namespace Host

theorem anyTracked_eq (items : List Value) : anyTracked items = items.any isTracked := by
  induction items with
  | nil => rfl
  | cons v rest ih => rw [anyTracked, ih, List.any_cons]

theorem allTypes_eq (items : List Value) : allTypes items = items.flatMap types := by
  induction items with
  | nil => rfl
  | cons v rest ih => rw [allTypes, ih, List.flatMap_cons]

theorem shapes?_of_forall {items : List Value} {s : Shape} (h : ∀ v ∈ items, shape? v = some s) :
    shapes? items = some (List.replicate items.length s) := by
  induction items with
  | nil => rfl
  | cons v rest ih =>
    rw [shapes?, h v List.mem_cons_self, ih fun v hv => h v (List.mem_cons_of_mem _ hv)]
    rfl

theorem allCodes_map {ι : Type} {is : List ι} {item : ι → Value} {found : ι → List ℤ}
    (h : ∀ i ∈ is, Host.codes u (item i) = .ok (found i)) :
    allCodes u (is.map item) = .ok (is.flatMap found) := by
  induction is with
  | nil => rfl
  | cons i is ih =>
    rw [List.map_cons, allCodes, h i List.mem_cons_self,
      ih fun j hj => h j (List.mem_cons_of_mem _ hj)]
    rfl

theorem isTracked_nest (t : ElementType) (s : Shape) (codes : List ℤ) :
    isTracked (nest t s codes) = false := by
  induction s generalizing codes with
  | nil => cases t <;> rfl
  | cons n s ih =>
    rw [nest, isTracked, anyTracked_eq, List.any_map, List.any_eq_false]
    intro i _
    rw [Function.comp_apply, ih]
    exact Bool.false_ne_true

/-- The shape is cut after the first extent of zero. -/
theorem shape?_nest (t : ElementType) (s : Shape) (codes : List ℤ) :
    shape? (nest t s codes) = some (untilZero s) := by
  induction s generalizing codes with
  | nil => cases t <;> rfl
  | cons n s ih =>
    rw [nest, shape?, shapes?_of_forall (s := untilZero s)]
    · rw [List.length_map, List.length_range]
      cases n with
      | zero => rfl
      | succ n =>
        rw [List.replicate_succ]
        dsimp only
        rw [if_pos (by simp), List.length_replicate]
        rfl
    · intro v hv
      obtain ⟨i, _, rfl⟩ := List.mem_map.mp hv
      exact ih _

theorem types_nest (hlen : s.size ≤ codes.length) :
    types (nest t s codes) = (codes.take s.size).map fun c => leafType (leaf t c) := by
  induction s generalizing codes with
  | nil =>
    obtain ⟨c, codes, rfl⟩ := List.exists_cons_of_length_pos (Nat.lt_of_lt_of_le one_pos hlen)
    cases t <;> rfl
  | cons n s ih =>
    rw [Shape.size_cons] at hlen
    rw [nest, types, allTypes_eq, List.flatMap_map, Shape.size_cons, ← flatMap_blocks,
      List.map_flatMap]
    exact flatMap_range_congr fun i hi => ih (length_drop_block hlen hi)

/-- Each element is found where it stands. -/
theorem codes_nest (h : ∀ c ∈ codes, code u (leaf t c) = .ok (g c)) (hlen : s.size ≤ codes.length) :
    Host.codes u (nest t s codes) = .ok ((codes.take s.size).map g) := by
  induction s generalizing codes with
  | nil =>
    obtain ⟨c, codes, rfl⟩ := List.exists_cons_of_length_pos (Nat.lt_of_lt_of_le one_pos hlen)
    have hc := h c List.mem_cons_self
    have hleaf : Host.codes u (leaf t c) = do return [← code u (leaf t c)] := by
      cases t <;> rfl
    rw [nest, List.headD_cons, hleaf, hc]
    rfl
  | cons n s ih =>
    rw [Shape.size_cons] at hlen
    have hitems := allCodes_map fun i (hi : i ∈ List.range n) =>
      ih (fun c hc => h c (List.mem_of_mem_drop hc)) (length_drop_block hlen (List.mem_range.mp hi))
    rw [nest, Host.codes, hitems, Shape.size_cons, ← flatMap_blocks, List.map_flatMap]

end Host

/-- Nested lists are read back as lists of what is read for each element. -/
theorem nest_readsAs (h : ∀ c ∈ codes, Json.ReadsAs (leaf t c) (leaf u (g c)))
    (hlen : s.size ≤ codes.length) :
    Json.ReadsAs (nest t s codes) (nest u s (codes.map g)) := by
  induction s generalizing codes with
  | nil =>
    obtain ⟨c, codes, rfl⟩ := List.exists_cons_of_length_pos (Nat.lt_of_lt_of_le one_pos hlen)
    exact h c List.mem_cons_self
  | cons n s ih =>
    rw [Shape.size_cons] at hlen
    rw [nest, nest]
    refine Json.readsAs_list ?_
    rw [List.forall₂_map_left_iff, List.forall₂_map_right_iff, List.forall₂_same]
    intro i hi
    rw [← List.map_drop]
    exact ih (fun c hc => h c (List.mem_of_mem_drop hc))
      (length_drop_block hlen (List.mem_range.mp hi))

end Literal
end Hyperslab
