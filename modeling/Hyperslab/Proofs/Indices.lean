import Hyperslab.Layout
import Mathlib.Data.List.Nodup
import Mathlib.Tactic.Ring

/-!
# Indices in row-major order

`Shape.indices` lists the indices of an array, the last axis fastest.  What an
array holds is then a function of the index mapped over this list, and a
statement about all elements is an equation between two such maps.  Components
are integers, so that an index can be compared with the value of an expression
such as `start + step * k` as it stands.
-/

namespace Hyperslab

/-! ## Runs of a range -/

/-- A range of `m * n` numbers is `m` runs of `n` numbers each. -/
theorem flatMap_range_mul {α : Type} (m n : Nat) (f : Nat → List α) :
    (List.range (m * n)).flatMap f =
      (List.range m).flatMap fun i => (List.range n).flatMap fun j => f (i * n + j) := by
  induction m with
  | zero => rw [Nat.zero_mul]; rfl
  | succ m ih =>
    rw [Nat.succ_mul, List.range_add, List.flatMap_append, ih, List.range_succ,
      List.flatMap_append, List.flatMap_singleton, List.flatMap_map]

/-- Two runs over a range agree if they agree at each number below its end. -/
theorem flatMap_range_congr {α : Type} {n : Nat} {f g : Nat → List α}
    (h : ∀ k < n, f k = g k) : (List.range n).flatMap f = (List.range n).flatMap g :=
  List.flatMap_congr fun k hk => h k (List.mem_range.mp hk)

namespace Shape

theorem size_nil : size [] = 1 := rfl

theorem size_cons (n : Nat) (s : Shape) : size (n :: s) = n * size s := rfl

/-- The order of the axes does not matter to the number of elements. -/
theorem size_perm {s t : Shape} (h : s.Perm t) : size s = size t := by
  induction h with
  | nil => rfl
  | cons n _ ih => rw [size_cons, size_cons, ih]
  | swap m n s => rw [size_cons, size_cons, size_cons, size_cons, Nat.mul_left_comm]
  | trans _ _ ih₁ ih₂ => rw [ih₁, ih₂]

/-- The indices of an array in row-major order. -/
def indices : Shape → List (List Int)
  | [] => [[]]
  | n :: rest => (List.range n).flatMap fun (k : Nat) => (indices rest).map ((k : Int) :: ·)

theorem indices_nil : indices [] = [[]] := rfl

theorem indices_cons (n : Nat) (s : Shape) :
    indices (n :: s) = (List.range n).flatMap fun (k : Nat) => (indices s).map ((k : Int) :: ·) :=
  rfl

theorem indices_singleton (n : Nat) :
    indices [n] = (List.range n).map fun (k : Nat) => [(k : Int)] := by
  rw [indices_cons, indices_nil, List.map_eq_flatMap]
  rfl

theorem length_indices (s : Shape) : s.indices.length = s.size := by
  induction s with
  | nil => rfl
  | cons n s ih =>
    rw [indices_cons, List.length_flatMap]
    simp only [List.length_map, ih, List.map_const', List.length_range, List.sum_replicate_nat]
    rfl

theorem indices_eq_nil {s : Shape} (h : s.size = 0) : s.indices = [] :=
  List.eq_nil_of_length_eq_zero (by rw [length_indices, h])

theorem mem_indices_nil {index : List Int} : index ∈ indices [] ↔ index = [] :=
  List.mem_singleton

theorem mem_indices_cons {n : Nat} {s : Shape} {index : List Int} :
    index ∈ indices (n :: s) ↔ ∃ i rest, index = i :: rest ∧ 0 ≤ i ∧ i < n ∧ rest ∈ s.indices := by
  rw [indices_cons, List.mem_flatMap]
  constructor
  · intro h
    obtain ⟨k, hk, h⟩ := h
    obtain ⟨rest, hrest, rfl⟩ := List.mem_map.mp h
    have hk' := List.mem_range.mp hk
    exact ⟨k, rest, rfl, Int.natCast_nonneg k, by omega, hrest⟩
  · intro h
    obtain ⟨i, rest, rfl, h0, hn, hrest⟩ := h
    refine ⟨i.toNat, List.mem_range.mpr (by omega), List.mem_map.mpr ⟨rest, hrest, ?_⟩⟩
    rw [Int.toNat_of_nonneg h0]

theorem cons_mem_indices {n : Nat} {s : Shape} {i : Int} {rest : List Int} :
    i :: rest ∈ indices (n :: s) ↔ (0 ≤ i ∧ i < n) ∧ rest ∈ s.indices := by
  rw [mem_indices_cons]
  constructor
  · intro h
    obtain ⟨j, tail, h, h0, hn, ht⟩ := h
    obtain ⟨rfl, rfl⟩ := List.cons.inj h
    exact ⟨⟨h0, hn⟩, ht⟩
  · intro h
    obtain ⟨⟨h0, hn⟩, ht⟩ := h
    exact ⟨i, rest, rfl, h0, hn, ht⟩

theorem length_of_mem_indices {s : Shape} {index : List Int} (h : index ∈ s.indices) :
    index.length = s.length := by
  induction s generalizing index with
  | nil => rw [mem_indices_nil.mp h]; rfl
  | cons n s ih =>
    obtain ⟨i, rest, rfl, -, -, hrest⟩ := mem_indices_cons.mp h
    rw [List.length_cons, List.length_cons, ih hrest]

theorem nodup_indices (s : Shape) : s.indices.Nodup := by
  induction s with
  | nil => exact List.nodup_singleton []
  | cons n s ih =>
    rw [indices_cons, List.nodup_flatMap]
    refine ⟨fun k _ => ih.map (List.cons_injective), ?_⟩
    refine List.nodup_range.imp fun {a b} hab index ha hb => ?_
    obtain ⟨_, _, rfl⟩ := List.mem_map.mp ha
    obtain ⟨_, _, h⟩ := List.mem_map.mp hb
    exact hab (by have := (List.cons.inj h).1; omega)

end Shape

end Hyperslab
