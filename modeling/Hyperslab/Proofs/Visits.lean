import Hyperslab.Proofs.Windows

/-!
# The indices that a resolved selection visits

A selection that was resolved has one interval for each axis of the shape, and the
intervals never lead outside of it.  Different indices of the processing shape visit
different indices of the input, so there are at most as many of them, and the window
of a selection takes some of the places of an array, each of them once.
-/

namespace Hyperslab
namespace Shape

/-- The component on each axis is at least zero and less than the extent. -/
def Holds (s : Shape) (index : List Int) : Prop :=
  List.Forall₂ (fun (i : Int) (n : Nat) => 0 ≤ i ∧ i < n) index s

theorem mem_indices_iff {s : Shape} {index : List Int} : index ∈ s.indices ↔ s.Holds index := by
  induction s generalizing index with
  | nil => rw [mem_indices_nil, Holds, List.forall₂_nil_right_iff]
  | cons n s ih =>
    rw [mem_indices_cons, Holds, List.forall₂_cons_right_iff]
    constructor
    · rintro ⟨i, rest, rfl, h0, hn, hrest⟩
      exact ⟨i, rest, ⟨h0, hn⟩, ih.mp hrest, rfl⟩
    · rintro ⟨i, rest, ⟨h0, hn⟩, hrest, rfl⟩
      exact ⟨i, rest, rfl, h0, hn, ih.mpr hrest⟩

end Shape

namespace Resolution

variable {r : Resolution}

theorem Fits.step_ne_zero (h : r.Fits) {i : Interval} (hi : i ∈ r.intervals) : i.step ≠ 0 := by
  obtain ⟨a, ha, rfl⟩ := List.mem_map.mp hi
  exact (h a ha).interval.step

/-- A selection has at most as many elements as the array: no index is selected twice. -/
theorem size_le (h : r.Fits) : r.size ≤ r.inputShape.size := by
  rw [← length_selected, ← Shape.length_indices]
  apply List.Subperm.length_le
  apply (nodup_selected h).subperm
  intro index hi
  exact mem_of_mem_selected h hi

theorem indexAt_holds (h : r.Fits) {k : List Int} (hk : r.processingShape.Holds k) :
    r.inputShape.Holds (r.indexAt k) :=
  Shape.mem_indices_iff.mp (indexAt_mem h (Shape.mem_indices_iff.mpr hk))

theorem indexAt_injective (h : r.Fits) {k k' : List Int} (hk : r.processingShape.Holds k)
    (hk' : r.processingShape.Holds k') (heq : r.indexAt k = r.indexAt k') : k = k' :=
  visited_injective h (Shape.mem_indices_iff.mpr hk) (Shape.mem_indices_iff.mpr hk') heq

/-- The window of a selection takes places of the array only, and takes none twice if the array has
none twice. -/
theorem window_places (h : r.Fits) {l : Layout} (hl : r.inputShape = l.shape) :
    (∀ p ∈ (l.window r.intervals r.processingShape).places, p ∈ l.places) ∧
      (l.places.Nodup → (l.window r.intervals r.processingShape).places.Nodup) := by
  let v : View := { kind := .host, type := .other, buffer := 0, layout := l }
  have hv : r.inputShape = v.shape := hl
  have hplaces : (l.window r.intervals r.processingShape).places =
      r.selected.map l.placeAt := places_window hv
  rw [hplaces]
  exact ⟨fun p hp => selected_subset_places h hv hp, fun hd => nodup_selected_places h hv hd⟩

/-- What resolving gives visits indices of the shape only, and none of them twice. -/
theorem ofValue_visits {shape : Shape} {spec : Value} (h : ofValue shape spec = .ok r) :
    -- There is one interval for each axis, and no step is zero.
    r.inputShape = shape ∧ r.intervals.length = shape.length ∧
      r.processingShape.length = shape.length ∧ r.dropped.length = shape.length ∧
      (∀ i ∈ r.intervals, i.step ≠ 0) ∧
      -- The walk stays inside the shape and never returns to an index.
      (∀ k, r.processingShape.Holds k →
        shape.Holds (List.zipWith (fun i j => i.start + i.step * j) r.intervals k)) ∧
      (∀ k k', r.processingShape.Holds k → r.processingShape.Holds k' →
        List.zipWith (fun i j => i.start + i.step * j) r.intervals k =
          List.zipWith (fun i j => i.start + i.step * j) r.intervals k' → k = k') ∧
      r.finalShape.size = r.processingShape.size ∧ r.processingShape.size ≤ shape.size ∧
      -- So does the window, whatever the layout.
      ∀ l : Layout, l.shape = shape →
        (∀ p ∈ (l.window r.intervals r.processingShape).places, p ∈ l.places) ∧
          (l.places.Nodup → (l.window r.intervals r.processingShape).places.Nodup) := by
  obtain ⟨hfits, rfl⟩ := ofValue_fits h
  have hrank := r.length_inputShape
  refine ⟨rfl, r.length_intervals.trans hrank.symm, r.length_processingShape.trans hrank.symm,
    (List.length_map _).trans hrank.symm, fun i hi => hfits.step_ne_zero hi, ?_, ?_,
    size_finalShape hfits, size_le hfits, fun l hl => window_places hfits hl.symm⟩
  · intro k hk
    exact indexAt_holds hfits hk
  · intro k k' hk hk' heq
    exact indexAt_injective hfits hk hk' heq

end Resolution

namespace Sample

/-- The last index of an axis, a backward walk, and an axis from which nothing is taken. -/
def backward : Value :=
  .masks { begins := [-1, 3, 2], ends := [0, -9, 0], strides := [1, -2, 1], shrinkMask := 1 }

theorem ofValue_visits_backward : ∃ r, Resolution.ofValue [3, 5, 2] backward = .ok r ∧
    r.finalShape.size = r.processingShape.size ∧
    r.processingShape.size ≤ Shape.size [3, 5, 2] ∧
    ∀ k, r.processingShape.Holds k →
      Shape.Holds [3, 5, 2] (List.zipWith (fun i j => i.start + i.step * j) r.intervals k) := by
  have hresolved : ∃ r, Resolution.ofValue [3, 5, 2] backward = .ok r := ⟨_, rfl⟩
  obtain ⟨r, h⟩ := hresolved
  obtain ⟨_, _, _, _, _, hinside, _, hfinal, hsize, _⟩ := Resolution.ofValue_visits h
  exact ⟨r, h, hfinal, hsize, hinside⟩

end Sample

end Hyperslab
