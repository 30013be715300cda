import Hyperslab.Proofs.Masks

/-!
# The indices selected

`Resolution.selected` lists the indices of the input that a selection reads or
writes, in the row-major order of the processing shape.  They are distinct indices
of the input, which is what makes a plain write to them well defined.
-/

namespace Hyperslab

open Shape (mem_indices_cons cons_mem_indices)

/-! ## Along the axes -/

theorem visited_mem {axes : List AxisSelection} (h : ∀ a ∈ axes, a.Fits) {index : List Int}
    (hi : index ∈ Shape.indices (axes.map (·.size))) :
    List.zipWith Interval.index (axes.map (·.interval)) index ∈
      Shape.indices (axes.map (·.extent)) := by
  induction axes generalizing index with
  | nil => exact Shape.mem_indices_nil.mpr rfl
  | cons a axes ih =>
    obtain ⟨k, rest, rfl, h0, hk, hrest⟩ := mem_indices_cons.mp hi
    obtain ⟨ha, haxes⟩ := List.forall_mem_cons.mp h
    exact cons_mem_indices.mpr ⟨ha.interval.index_mem h0 hk, ih haxes hrest⟩

theorem visited_injective {axes : List AxisSelection} (h : ∀ a ∈ axes, a.Fits)
    {index index' : List Int} (hi : index ∈ Shape.indices (axes.map (·.size)))
    (hi' : index' ∈ Shape.indices (axes.map (·.size)))
    (heq : List.zipWith Interval.index (axes.map (·.interval)) index =
      List.zipWith Interval.index (axes.map (·.interval)) index') : index = index' := by
  induction axes generalizing index index' with
  | nil => rw [Shape.mem_indices_nil.mp hi, Shape.mem_indices_nil.mp hi']
  | cons a axes ih =>
    obtain ⟨k, rest, rfl, _, _, hrest⟩ := mem_indices_cons.mp hi
    obtain ⟨k', rest', rfl, _, _, hrest'⟩ := mem_indices_cons.mp hi'
    obtain ⟨ha, haxes⟩ := List.forall_mem_cons.mp h
    rw [List.map_cons, List.zipWith_cons_cons, List.zipWith_cons_cons, List.cons.injEq] at heq
    rw [Interval.index_injective ha.interval.step heq.1, ih haxes hrest hrest' heq.2]

theorem visited_whole {axes : List AxisSelection} (h : axes.all (·.isWhole) = true)
    {index : List Int} (hi : index.length = axes.length) :
    List.zipWith Interval.index (axes.map (·.interval)) index = index := by
  induction axes generalizing index with
  | nil => rw [List.length_eq_zero_iff.mp hi]; rfl
  | cons a axes ih =>
    obtain ⟨k, rest, rfl⟩ := List.exists_cons_of_length_eq_add_one hi
    rw [List.all_cons, Bool.and_eq_true] at h
    rw [List.map_cons, List.zipWith_cons_cons, ih h.2 (by simpa using hi),
      Interval.isWhole_iff.mp h.1, Interval.index_whole]

theorem sizes_whole {axes : List AxisSelection} (h : axes.all (·.isWhole) = true) :
    axes.map (·.size) = axes.map (·.extent) := by
  refine List.map_congr_left fun a ha => ?_
  rw [AxisSelection.size, Interval.isWhole_iff.mp (List.all_eq_true.mp h a ha), Interval.size_whole]

theorem Shape.size_filter (s : Shape) : size (s.filter (· ≠ 1)) = size s := by
  induction s with
  | nil => rfl
  | cons n s ih =>
    by_cases h : n = 1
    · rw [List.filter_cons_of_neg (by simpa using h), ih, size_cons, h, Nat.one_mul]
    · rw [List.filter_cons_of_pos (by simpa using h), size_cons, size_cons, ih]

namespace Resolution

/-- The index of the input that is visited at an index of the processing shape. -/
def indexAt (r : Resolution) (index : List Int) : List Int :=
  List.zipWith Interval.index r.intervals index

/-- The indices selected, in row-major order of the processing shape. -/
def selected (r : Resolution) : List (List Int) := r.processingShape.indices.map r.indexAt

theorem indexAt_mem {r : Resolution} (h : r.Fits) {index : List Int}
    (hi : index ∈ r.processingShape.indices) : r.indexAt index ∈ r.inputShape.indices :=
  visited_mem h hi

theorem mem_of_mem_selected {r : Resolution} (h : r.Fits) {index : List Int}
    (hi : index ∈ r.selected) : index ∈ r.inputShape.indices := by
  obtain ⟨k, hk, rfl⟩ := List.mem_map.mp hi
  exact indexAt_mem h hk

theorem nodup_selected {r : Resolution} (h : r.Fits) : r.selected.Nodup :=
  List.Nodup.map_on (fun _ ha _ hb heq => visited_injective h ha hb heq)
    r.processingShape.nodup_indices

theorem length_selected (r : Resolution) : r.selected.length = r.size := by
  rw [selected, List.length_map, Shape.length_indices]
  rfl

theorem processingShape_of_identity {r : Resolution} (h : r.isIdentity = true) :
    r.processingShape = r.inputShape := sizes_whole h

theorem selected_identity {r : Resolution} (h : r.isIdentity = true) :
    r.selected = r.inputShape.indices := by
  rw [selected, processingShape_of_identity h]
  conv_rhs => rw [← List.map_id r.inputShape.indices]
  refine List.map_congr_left fun index hi => visited_whole h ?_
  rw [Shape.length_of_mem_indices hi, inputShape, List.length_map]

theorem length_intervals (r : Resolution) : r.intervals.length = r.axes.length :=
  List.length_map _

theorem length_processingShape (r : Resolution) : r.processingShape.length = r.axes.length :=
  List.length_map _

theorem length_inputShape (r : Resolution) : r.inputShape.length = r.axes.length :=
  List.length_map _

theorem ofValue_rank {shape : Shape} {spec : Value} {r : Resolution}
    (h : ofValue shape spec = .ok r) : r.axes.length = shape.length := by
  rw [← length_inputShape, (ofValue_fits h).2]

/-- Only axes of extent one are dropped and inserted. -/
theorem filter_finalShape {r : Resolution} (h : r.Fits) :
    r.finalShape.filter (· ≠ 1) = r.processingShape.filter (· ≠ 1) := by
  obtain ⟨slots⟩ := r
  show (slots.filterMap Slot.finalExtent?).filter _ =
    ((slots.filterMap Slot.axis?).map (·.size)).filter _
  replace h : ∀ a ∈ slots.filterMap Slot.axis?, a.Fits := h
  induction slots with
  | nil => rfl
  | cons slot slots ih =>
    cases slot with
    | inserted =>
      rw [List.filterMap_cons_some (show Slot.finalExtent? .inserted = some 1 from rfl),
        List.filter_cons_of_neg (by decide)]
      exact ih h
    | axis a =>
      obtain ⟨ha, hrest⟩ := List.forall_mem_cons.mp h
      rw [List.filterMap_cons_some (show Slot.axis? (.axis a) = some a from rfl), List.map_cons]
      by_cases hd : a.dropped = true
      · rw [List.filterMap_cons_none (show Slot.finalExtent? (.axis a) = none from if_pos hd),
          ih hrest, List.filter_cons_of_neg (by simp [ha.dropped hd])]
      · rw [List.filterMap_cons_some
          (show Slot.finalExtent? (.axis a) = some a.size from if_neg hd), List.filter_cons,
          List.filter_cons, ih hrest]

/-- Dropping axes and inserting new ones keeps the number of elements. -/
theorem size_finalShape {r : Resolution} (h : r.Fits) : r.finalShape.size = r.size := by
  rw [← Shape.size_filter, filter_finalShape h, Shape.size_filter]
  rfl

end Resolution

end Hyperslab
