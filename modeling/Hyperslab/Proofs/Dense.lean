import Hyperslab.Proofs.Places
import Mathlib.Data.List.Perm.Basic
import Mathlib.Data.Multiset.Bind

/-!
# Layouts of new arrays

A new array has one cell for each element.  A row-major layout takes them in
order.  The layout of a copy keeps the order of the strides, so its axes are the
row-major ones of a shape with the axes sorted, and sorting axes only changes the
order in which the same places are listed.
-/

namespace Hyperslab
namespace Layout

/-- The elements take the first cells of a buffer, one each. -/
def Fills (l : Layout) : Prop :=
  l.places.Perm ((List.range l.size).map fun (n : Nat) => (n : Int))

theorem rowMajor_fills (s : Shape) : (rowMajor s).Fills := by
  have hs : (rowMajor s).size = s.size := congrArg Shape.size (shape_rowMajor s)
  unfold Fills
  rw [places_rowMajor, hs]

namespace Fills

theorem nodup {l : Layout} (h : l.Fills) : l.places.Nodup :=
  (List.Perm.nodup_iff h).mpr (List.nodup_range.map Int.ofNat_injective)

theorem mem_places_iff {l : Layout} (h : l.Fills) {p : Int} :
    p ∈ l.places ↔ 0 ≤ p ∧ p < l.size := by
  rw [List.Perm.mem_iff h, List.mem_map]
  constructor
  · intro h
    obtain ⟨n, hn, rfl⟩ := h
    have := List.mem_range.mp hn
    omega
  · intro h
    obtain ⟨h0, hp⟩ := h
    exact ⟨p.toNat, List.mem_range.mpr (by omega), Int.toNat_of_nonneg h0⟩

end Fills

/-! ## The order of the axes -/

theorem placesFrom_swap (d e : Dim) (rest : List Dim) (base : Int) :
    (placesFrom base (d :: e :: rest)).Perm (placesFrom base (e :: d :: rest)) := by
  rw [← Multiset.coe_eq_coe]
  simp only [placesFrom]
  simp only [← Multiset.coe_bind]
  rw [Multiset.bind_bind]
  refine Multiset.bind_congr fun j _ => Multiset.bind_congr fun i _ => ?_
  rw [Int.add_right_comm]

theorem placesFrom_perm {dims dims' : List Dim} (h : dims.Perm dims') (base : Int) :
    (placesFrom base dims).Perm (placesFrom base dims') := by
  induction h generalizing base with
  | nil => exact List.Perm.refl _
  | cons d _ ih =>
    rw [placesFrom, placesFrom]
    exact List.Perm.flatMap_left _ fun k _ => ih _
  | swap d e rest => exact placesFrom_swap e d rest base
  | trans _ _ ih₁ ih₂ => exact (ih₁ base).trans (ih₂ base)

/-- Column-major axes are the row-major ones of the reversed shape, in reverse. -/
theorem columnMajorDims_reverse (s t : Shape) :
    (columnMajorDims t.size s).reverse ++ rowMajorDims t = rowMajorDims (s.reverse ++ t) := by
  induction s generalizing t with
  | nil => rfl
  | cons n s ih =>
    have hrest := ih (n :: t)
    rw [Shape.size_cons, Nat.mul_comm] at hrest
    rw [columnMajorDims, List.reverse_cons, List.append_assoc, List.reverse_cons,
      List.append_assoc]
    exact hrest

theorem columnMajor_fills (s : Shape) : (columnMajor s).Fills := by
  have hdims : (columnMajorDims 1 s).Perm (rowMajorDims s.reverse) := by
    have h := columnMajorDims_reverse s []
    rw [rowMajorDims, List.append_nil, List.append_nil] at h
    rw [← h]
    exact (List.reverse_perm _).symm
  have hsize : (columnMajor s).size = Shape.size s.reverse := by
    have h := Shape.size_perm (hdims.map (·.extent))
    rwa [show (rowMajorDims s.reverse).map (·.extent) = s.reverse from shape_rowMajor _] at h
  unfold Fills
  rw [places_eq_placesFrom, hsize, ← places_rowMajor, places_eq_placesFrom]
  exact placesFrom_perm hdims 0

/-! ## Axes in the order of their strides -/

theorem slower_iff (a b : Dim × Nat) :
    slower a b = true ↔ b.1.stride.natAbs < a.1.stride.natAbs ∨
      (a.1.stride.natAbs = b.1.stride.natAbs ∧ a.2 < b.2) := by
  simp [slower]

theorem slower_asymm {a b : Dim × Nat} (h : slower a b = true) : slower b a = false := by
  rw [Bool.eq_false_iff, Ne, slower_iff]
  rw [slower_iff] at h
  omega

theorem slower_irrefl (a : Dim × Nat) : slower a a = false := by
  rw [Bool.eq_false_iff, Ne, slower_iff]
  omega

/-- Numbered axes can be sorted from the slowest to the fastest. -/
theorem exists_sorted (axes : List (Dim × Nat)) (h : (axes.map (·.2)).Nodup) :
    ∃ sorted : List (Dim × Nat),
      sorted.Perm axes ∧ sorted.Pairwise fun a b => slower a b = true := by
  have hperm := axes.mergeSort_perm fun a b => !slower b a
  refine ⟨_, hperm, ?_⟩
  have htrans : ∀ a b c : Dim × Nat, (!slower b a) = true → (!slower c b) = true →
      (!slower c a) = true := by
    intro a b c hab hbc
    rw [Bool.not_eq_true', Bool.eq_false_iff, Ne, slower_iff] at hab hbc ⊢
    omega
  have htotal : ∀ a b : Dim × Nat, ((!slower b a) || (!slower a b)) = true := by
    intro a b
    cases hab : slower a b with
    | false => rw [Bool.not_false, Bool.or_true]
    | true => rw [slower_asymm hab]; rfl
  have hsorted := List.pairwise_mergeSort htrans htotal axes
  have hnumbers : ((axes.mergeSort fun a b => !slower b a).map (·.2)).Nodup :=
    (hperm.map _).nodup_iff.mpr h
  refine (hsorted.and (List.pairwise_map.mp hnumbers)).imp fun {a b} hab => ?_
  obtain ⟨hle, hne⟩ := hab
  rw [Bool.not_eq_true', Bool.eq_false_iff, Ne, slower_iff] at hle
  rw [slower_iff]
  omega

/-- An axis of a copy: its stride counts the elements of the faster axes. -/
def denseDim (axes : List (Dim × Nat)) (a : Dim × Nat) : Dim :=
  ⟨a.1.extent, Shape.size ((axes.filter (slower a)).map (·.1.extent))⟩

theorem dense_dims (l : Layout) :
    l.dense.dims = l.dims.zipIdx.map (denseDim l.dims.zipIdx) := rfl

theorem denseDim_perm {axes axes' : List (Dim × Nat)} (h : axes.Perm axes') :
    denseDim axes = denseDim axes' := by
  funext a
  rw [denseDim, denseDim, Shape.size_perm ((h.filter _).map _)]

theorem map_denseDim_sorted {sorted : List (Dim × Nat)}
    (h : sorted.Pairwise fun a b => slower a b = true) :
    sorted.map (denseDim sorted) = rowMajorDims (sorted.map (·.1.extent)) := by
  induction sorted with
  | nil => rfl
  | cons a rest ih =>
    obtain ⟨ha, hrest⟩ := List.pairwise_cons.mp h
    have hfirst : (a :: rest).filter (slower a) = rest := by
      rw [List.filter_cons, slower_irrefl, if_neg Bool.false_ne_true]
      exact List.filter_eq_self.mpr ha
    have htail : rest.map (denseDim (a :: rest)) = rest.map (denseDim rest) := by
      refine List.map_congr_left fun b hb => ?_
      rw [denseDim, denseDim, List.filter_cons, slower_asymm (ha b hb),
        if_neg Bool.false_ne_true]
    rw [List.map_cons, htail, ih hrest, denseDim, hfirst]
    rfl

theorem shape_dense (l : Layout) : l.dense.shape = l.shape := by
  show l.dense.dims.map (·.extent) = l.dims.map (·.extent)
  rw [dense_dims, List.map_map]
  refine List.ext_getElem (by simp) fun n hn hn' => ?_
  simp [denseDim]

theorem dense_fills (l : Layout) : l.dense.Fills := by
  have hnumbers : (l.dims.zipIdx.map (·.2)).Nodup := by
    rw [List.zipIdx_map_snd]
    exact List.nodup_range'
  obtain ⟨sorted, hperm, hsorted⟩ := exists_sorted l.dims.zipIdx hnumbers
  have hdims : l.dense.dims.Perm (rowMajorDims (sorted.map (·.1.extent))) := by
    rw [← map_denseDim_sorted hsorted, dense_dims, denseDim_perm hperm]
    exact hperm.symm.map _
  have hsize : Shape.size (sorted.map (·.1.extent)) = l.dense.size := by
    rw [Layout.size, shape_dense, Shape.size_perm (hperm.map _), Layout.shape]
    congr 1
    exact List.ext_getElem (by simp) fun n hn hn' => by simp
  unfold Fills
  rw [places_eq_placesFrom]
  refine (placesFrom_perm hdims _).trans ?_
  show (placesFrom 0 _).Perm _
  rw [placesFrom_rowMajorDims, hsize]
  simp only [Int.zero_add]
  exact List.Perm.refl _

end Layout

end Hyperslab
