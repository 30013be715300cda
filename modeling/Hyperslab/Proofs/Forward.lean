import Hyperslab.Proofs.Opening
import Hyperslab.Proofs.Visits

/-!
# Forward windows

A tensor is asked for a window by raw numbers: an offset, strides and extents.
Reversed axes are walked forward from their last selected element, so no stride is
negative, and the offset moves to another element of the selection.  Every place
that the window reaches is then that of an element of the tensor, and turning the
reversed axes around puts the elements in the order of the selection.
-/

namespace Hyperslab

namespace ForwardWindow

/-- The window visits the selected elements of an array, and no other place. -/
structure Covers (w : ForwardWindow) (v : View) (s : Store) (r : Resolution) : Prop where
  shape : w.layout.shape = r.processingShape
  strides : ∀ d ∈ w.layout.dims, 0 ≤ d.stride
  offset : 0 ≤ w.layout.offset
  /-- Each place is the cell of an element. -/
  inside : ∀ k, r.processingShape.Holds k → s.HasCell v.buffer (w.layout.placeAt k) ∧
    ∃ index, v.shape.Holds index ∧ w.layout.placeAt k = v.layout.placeAt index
  /-- Counted from the far end of the turned axes, it is the element that the walk visits. -/
  turned : ∀ k, r.processingShape.Holds k →
    w.layout.placeAt (Shape.mirror r.processingShape w.flips k) =
      v.layout.placeAt (List.zipWith (fun i j => i.start + i.step * j) r.intervals k)

theorem strides_nonneg (l : Layout) : ∀ d ∈ (ofLayout l).layout.dims, 0 ≤ d.stride := by
  rw [dims_ofLayout]
  intro d hd
  obtain ⟨_, _, rfl⟩ := List.mem_map.mp hd
  exact Int.natCast_nonneg _

/-- An index of the forward window stands for the one counted from the far end of the turned
axes. -/
theorem placeAt_ofLayout {l : Layout} {index : List Int} (h : index ∈ l.shape.indices) :
    (ofLayout l).layout.placeAt index = l.placeAt (mirror l index) :=
  Layout.placeAt_flip l (length_flips l) h

end ForwardWindow

namespace Resolution

variable {r : Resolution} {v : View} {s : Store}

/-- The forward window of a selection from an array covers it. -/
theorem covers_ofLayout (hv : v.Within s) (hf : r.Fits) (hr : r.inputShape = v.shape)
    (hsize : r.size ≠ 0) :
    (ForwardWindow.ofLayout (v.layout.window r.intervals r.processingShape)).Covers v s r := by
  have hshape := shape_window hr
  have hplace : ∀ k ∈ r.processingShape.indices,
      (v.layout.window r.intervals r.processingShape).placeAt k = v.layout.placeAt (r.indexAt k) :=
    fun k hk => Layout.placeAt_window v.layout (length_dims hr) r.length_extents hk
  generalize v.layout.window r.intervals r.processingShape = l at *
  have hmirror : ∀ k ∈ r.processingShape.indices,
      ForwardWindow.mirror l k ∈ r.processingShape.indices := by
    rw [← hshape]
    exact fun k hk => ForwardWindow.mirror_mem hk
  have hforward : ∀ k ∈ r.processingShape.indices,
      (ForwardWindow.ofLayout l).layout.placeAt k =
        v.layout.placeAt (r.indexAt (ForwardWindow.mirror l k)) := fun k hk =>
    (ForwardWindow.placeAt_ofLayout (hshape ▸ hk)).trans (hplace _ (hmirror k hk))
  have hinside : ∀ k, r.processingShape.Holds k →
      s.HasCell v.buffer ((ForwardWindow.ofLayout l).layout.placeAt k) ∧ ∃ index,
        v.shape.Holds index ∧
          (ForwardWindow.ofLayout l).layout.placeAt k = v.layout.placeAt index := by
    intro k hk
    have hk := Shape.mem_indices_iff.mpr hk
    have hindex := indexAt_holds hf (Shape.mem_indices_iff.mp (hmirror k hk))
    rw [hr] at hindex
    refine ⟨?_, _, hindex, hforward k hk⟩
    rw [hforward k hk]
    exact hv.cells _ (Layout.placeAt_mem_places (Shape.mem_indices_iff.mpr hindex))
  refine ⟨(ForwardWindow.shape_ofLayout l).trans hshape, ForwardWindow.strides_nonneg l, ?_,
    hinside, fun k hk => ?_⟩
  · -- The offset is the place of the first element of the window.
    have hzeros := Shape.mem_indices_iff.mp (Shape.zeros_mem_indices hsize)
    have hfirst := (hinside _ hzeros).1.1
    rwa [← hshape, ← ForwardWindow.shape_ofLayout, Layout.shape, List.map_map, Layout.placeAt,
      Function.comp_def, Layout.travel_zeros, Int.add_zero] at hfirst
  · have hk := Shape.mem_indices_iff.mpr hk
    have hturned := hforward _ (hmirror k hk)
    rw [ForwardWindow.mirror_mirror (hshape ▸ hk)] at hturned
    rw [← hshape]
    exact hturned

end Resolution

namespace View

/-- The window that a tensor is asked for covers the selection, so what is asked for stays in the
tensor; it is refused only if a stride does not fit in 64 bits. -/
theorem forwardWindow_covers {v : View} {s : Store} {spec : Value} {r : Resolution}
    (hv : v.Within s) (hr : Resolution.ofValue v.shape spec = .ok r) (hsize : r.size ≠ 0) :
    let w := ForwardWindow.ofLayout (v.layout.window r.intervals r.processingShape)
    w.Covers v s r ∧ v.forwardWindow s r.intervals r.processingShape =
      if stridesFit w.layout 1 then .ok w else .error .tensorStride := by
  obtain ⟨hf, hshape⟩ := Resolution.ofValue_fits hr
  exact ⟨Resolution.covers_ofLayout hv hf hshape hsize, forwardWindow_eq hv hf hshape hsize⟩

end View

namespace Sample

/-- Every other cell of twelve. -/
def odds : View :=
  { kind := .tensor, type := .int64, buffer := 0, layout := ⟨1, [⟨3, 4⟩, ⟨2, 2⟩]⟩ }

def twelve : Store := { buffers := #[#[0, 1, 2, 3, 4, 5, 6, 7, 8, 9, 10, 11]] }

/-- Every other row from the last, and of the columns the last in a step longer than the axis. -/
def fromLast : Value :=
  .masks { begins := [2, 1], ends := [-9, -9], strides := [-2, -5] }

theorem forwardWindow_covers_odds : odds.Within twelve ∧
    ∃ r, Resolution.ofValue odds.shape fromLast = .ok r ∧ r.size ≠ 0 ∧
      ∃ w : ForwardWindow, w = ⟨⟨3, [⟨2, 8⟩, ⟨1, 10⟩]⟩, [true, true]⟩ ∧ w.Covers odds twelve r ∧
        odds.forwardWindow twelve r.intervals r.processingShape = .ok w := by
  have hv : odds.Within twelve := by decide
  have hresolved : ∃ r, Resolution.ofValue odds.shape fromLast = .ok r ∧ r.size ≠ 0 ∧
      ForwardWindow.ofLayout (odds.layout.window r.intervals r.processingShape) =
        ⟨⟨3, [⟨2, 8⟩, ⟨1, 10⟩]⟩, [true, true]⟩ := ⟨_, rfl, by decide, rfl⟩
  obtain ⟨r, hr, hsize, hw⟩ := hresolved
  obtain ⟨hcovers, hwindow⟩ := View.forwardWindow_covers hv hr hsize
  rw [hw] at hcovers hwindow
  exact ⟨hv, r, hr, hsize, _, rfl, hcovers, hwindow.trans (if_pos (by decide))⟩

end Sample

end Hyperslab
