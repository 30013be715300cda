import Hyperslab.Proofs.Returns

/-!
# Windows that open

A window is refused for its strides, or because it leaves its buffer.  A tensor is
asked for the first and the last place of the forward walk; both are places of
elements, so the window of a selection can only be refused for its strides.
-/

namespace Hyperslab

/-! ## The ends of a layout -/

namespace Shape

theorem zeros_mem_indices {s : Shape} (h : s.size ≠ 0) :
    s.map (fun _ => (0 : Int)) ∈ s.indices := by
  induction s with
  | nil => exact mem_indices_nil.mpr rfl
  | cons n s ih =>
    rw [size_cons] at h
    have hn := Nat.pos_of_ne_zero (Nat.ne_zero_of_mul_ne_zero_left h)
    exact cons_mem_indices.mpr
      ⟨⟨Int.le_refl 0, Int.natCast_pos.mpr hn⟩, ih (Nat.ne_zero_of_mul_ne_zero_right h)⟩

theorem lasts_mem_indices {s : Shape} (h : s.size ≠ 0) :
    s.map (fun (n : Nat) => (n : Int) - 1) ∈ s.indices := by
  induction s with
  | nil => exact mem_indices_nil.mpr rfl
  | cons n s ih =>
    rw [size_cons] at h
    have hn := Nat.pos_of_ne_zero (Nat.ne_zero_of_mul_ne_zero_left h)
    have hlast : 0 ≤ (n : Int) - 1 ∧ (n : Int) - 1 < n := by omega
    exact cons_mem_indices.mpr ⟨hlast, ih (Nat.ne_zero_of_mul_ne_zero_right h)⟩

end Shape

namespace Layout

theorem travel_zeros (dims : List Dim) : travel dims (dims.map fun _ => 0) = 0 := by
  induction dims with
  | nil => rfl
  | cons d dims ih => rw [List.map_cons, travel_cons, ih, Int.zero_mul, Int.add_zero]

theorem offset_mem_places {l : Layout} (h : l.size ≠ 0) : l.offset ∈ l.places := by
  have hmem := placeAt_mem_places (Shape.zeros_mem_indices h)
  rw [shape, List.map_map] at hmem
  have hplace : l.placeAt (l.dims.map fun _ => 0) = l.offset := by
    rw [placeAt, travel_zeros, Int.add_zero]
  rw [← hplace]
  exact hmem

/-- Some element other than the first one is one stride away from it. -/
theorem exists_travel_eq_stride {dims : List Dim} {d : Dim}
    (hsize : Shape.size (dims.map (·.extent)) ≠ 0) (hd : d ∈ dims) (htwo : 2 ≤ d.extent) :
    ∃ index ∈ Shape.indices (dims.map (·.extent)), index ≠ dims.map (fun _ => 0) ∧
      travel dims index = d.stride := by
  induction dims with
  | nil => exact absurd hd List.not_mem_nil
  | cons e dims ih =>
    rw [List.map_cons, Shape.size_cons] at hsize
    have hrest := Nat.ne_zero_of_mul_ne_zero_right hsize
    rw [List.map_cons, List.map_cons]
    rcases List.mem_cons.mp hd with rfl | hd
    · have hzeros := Shape.zeros_mem_indices hrest
      rw [List.map_map] at hzeros
      refine ⟨1 :: dims.map fun _ => 0, Shape.cons_mem_indices.mpr ⟨by omega, hzeros⟩, ?_, ?_⟩
      · exact fun he => absurd (List.cons.inj he).1 (by decide)
      · rw [travel_cons, travel_zeros, Int.one_mul, Int.add_zero]
    · obtain ⟨index, hindex, hne, htravel⟩ := ih hrest hd
      have hpos := Nat.pos_of_ne_zero (Nat.ne_zero_of_mul_ne_zero_left hsize)
      refine ⟨0 :: index, Shape.cons_mem_indices.mpr ⟨by omega, hindex⟩, ?_, ?_⟩
      · exact fun he => hne (List.cons.inj he).2
      · rw [travel_cons, htravel, Int.zero_mul, Int.zero_add]

/-- An axis that repeats its cells has two elements with one cell. -/
theorem repeats_of_nodup {l : Layout} (h : l.places.Nodup) : l.repeats = false := by
  refine Bool.eq_false_iff.mpr fun hrepeats => ?_
  simp only [repeats, Bool.and_eq_true, bne_iff_ne, List.any_eq_true, beq_iff_eq,
    decide_eq_true_eq] at hrepeats
  obtain ⟨hsize, d, hd, hstride, htwo⟩ := hrepeats
  obtain ⟨index, hindex, hne, htravel⟩ := exists_travel_eq_stride hsize hd htwo
  have hzeros := Shape.zeros_mem_indices hsize
  rw [shape, List.map_map] at hzeros
  refine hne (placeAt_injOn h hindex hzeros ?_)
  show l.offset + _ = l.offset + travel l.dims (l.dims.map fun _ => 0)
  rw [htravel, hstride, travel_zeros]

/-- The place of the last element is the first one and all that the axes add to it. -/
theorem last_mem_places {l : Layout} (h : l.size ≠ 0) :
    l.dims.foldl (fun o d => o + ((d.extent : Int) - 1) * d.stride) l.offset ∈ l.places := by
  have hfold : ∀ (dims : List Dim) (o : Int),
      dims.foldl (fun o d => o + ((d.extent : Int) - 1) * d.stride) o =
        o + travel dims (dims.map fun d => (d.extent : Int) - 1) := by
    intro dims
    induction dims with
    | nil => intro o; exact (Int.add_zero o).symm
    | cons d dims ih =>
      intro o
      rw [List.foldl_cons, ih, List.map_cons, travel_cons, Int.add_assoc]
  have hmem := placeAt_mem_places (Shape.lasts_mem_indices h)
  rw [shape, List.map_map] at hmem
  rw [hfold]
  exact hmem

theorem mem_window_dims {l : Layout} {is : List Interval} {extents : Shape} {d : Dim}
    (h : d ∈ (l.window is extents).dims) :
    ∃ e ∈ l.dims, ∃ i ∈ is, d.stride = i.step * e.stride := by
  rw [window, ← List.map_uncurry_zip_eq_zipWith] at h
  obtain ⟨⟨⟨e, i⟩, n⟩, hp, rfl⟩ := List.mem_map.mp h
  obtain ⟨he, hi⟩ := List.of_mem_zip (List.of_mem_zip hp).1
  exact ⟨e, he, i, hi, rfl⟩

end Layout

namespace ForwardWindow

theorem stridesFit_ofLayout (l : Layout) : View.stridesFit (ofLayout l).layout 1 =
    l.dims.all fun d => ElementType.int64.inRange d.stride.natAbs := by
  simp only [View.stridesFit, dims_ofLayout, List.all_map, Function.comp_def, Int.natCast_one,
    Int.mul_one]

end ForwardWindow

/-! ## Windows of selections -/

namespace Layout

/-- The strides of a window are numbers of 64 bits: those of a host array in bytes, and those of a
tensor also after a reversed axis was turned around. -/
def Addressable (window : Layout) (kind : ArrayKind) (type : ElementType) : Prop :=
  match kind with
  | .host => View.stridesFit window type.itemSize = true
  | .tensor => ∀ d ∈ window.dims, ElementType.int64.inRange d.stride.natAbs = true

instance (window : Layout) (kind : ArrayKind) (type : ElementType) :
    Decidable (window.Addressable kind type) :=
  match kind with
  | .host => inferInstanceAs (Decidable (View.stridesFit window type.itemSize = true))
  | .tensor => inferInstanceAs
      (Decidable (∀ d ∈ window.dims, ElementType.int64.inRange d.stride.natAbs = true))

end Layout

namespace View

/-- The forward window of a selection stays in the buffer, so it is refused for its strides only. -/
theorem forwardWindow_eq {v : View} {s : Store} {r : Resolution} (hv : v.Within s) (hf : r.Fits)
    (hr : r.inputShape = v.shape) (hsize : r.size ≠ 0) :
    v.forwardWindow s r.intervals r.processingShape =
      let w := ForwardWindow.ofLayout (v.layout.window r.intervals r.processingShape)
      if stridesFit w.layout 1 then .ok w else .error .tensorStride := by
  have hcells : ∀ p ∈ (ForwardWindow.ofLayout
      (v.layout.window r.intervals r.processingShape)).layout.places, s.HasCell v.buffer p := by
    intro p hp
    have hp := (ForwardWindow.places_perm _).mem_iff.mp hp
    rw [Resolution.places_window hr] at hp
    exact hv.cells p (Resolution.selected_subset_places hf hr hp)
  have hlayout : (ForwardWindow.ofLayout
      (v.layout.window r.intervals r.processingShape)).layout.size ≠ 0 := by
    rw [Layout.size, ForwardWindow.shape_ofLayout, Resolution.shape_window hr]
    exact hsize
  have hfirst := hcells _ (Layout.offset_mem_places hlayout)
  have hlast := hcells _ (Layout.last_mem_places hlayout)
  unfold forwardWindow
  dsimp only
  generalize ForwardWindow.ofLayout (v.layout.window r.intervals r.processingShape) = w at *
  by_cases hfit : stridesFit w.layout 1 = true
  · rw [if_neg (by simp [hfit]), if_pos hfit]
    refine if_neg fun hout => ?_
    obtain ⟨_, hoffset | hreach⟩ := hout
    · exact absurd hfirst.1 (Int.not_le.mpr hoffset)
    · have := hlast.2
      unfold ForwardWindow.reach at hreach
      omega
  · rw [if_pos (by simp [hfit]), if_neg hfit]

theorem opens_of_addressable {v : View} {s : Store} {r : Resolution} (hv : v.Within s)
    (hf : r.Fits) (hr : r.inputShape = v.shape) (hsize : r.size ≠ 0)
    (h : (v.layout.window r.intervals r.processingShape).Addressable v.kind v.type) :
    v.Opens s r.intervals r.processingShape := by
  unfold Layout.Addressable at h
  unfold Opens
  cases hk : v.kind with
  | host =>
    rw [hk] at h
    exact ⟨_, if_pos h⟩
  | tensor =>
    rw [hk] at h
    refine ⟨_, (forwardWindow_eq hv hf hr hsize).trans (if_pos ?_)⟩
    rw [ForwardWindow.stridesFit_ofLayout]
    exact List.all_eq_true.mpr h

end View

end Hyperslab
