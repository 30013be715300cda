import Hyperslab.Proofs.Handover
import Hyperslab.Proofs.Selected

/-!
# Windows that are read and written

A host array walks a window in the given steps.  A tensor walks the reversed axes
forward and turns the codes around.  `turn_places` and `turn_updates` show that the
second way has the effect of the first, so both kinds of array share the lemmas
about walks.
-/

namespace Hyperslab

open Store (Extends Updates HasCell)

/-- An update does not depend on the order in which distinct cells are written. -/
theorem Store.Updates.perm {s s' : Store} {buffer : Nat} {α : Type} {items items' : List α}
    {place code : α → Int} (h : Updates s s' buffer (items.map place) (items.map code))
    (hp : items.Perm items') : Updates s s' buffer (items'.map place) (items'.map code) where
  count := h.count
  extent := h.extent
  written := by
    rw [gather, List.map_map]
    exact List.map_congr_left fun a ha => h.read_of_mem (hp.mem_iff.mpr ha)
  frame b hb p hm := h.frame b hb p fun he hmem => hm he ((hp.map place).mem_iff.mp hmem)
  limit := h.limit

namespace ForwardWindow

theorem length_flips (l : Layout) : (ofLayout l).flips.length = l.dims.length :=
  List.length_map _

theorem shape_ofLayout (l : Layout) : (ofLayout l).layout.shape = l.shape :=
  Layout.shape_flip l (length_flips l)

/-- The forward window has the absolute values of the strides. -/
theorem dims_ofLayout (l : Layout) :
    (ofLayout l).layout.dims = l.dims.map fun d => ⟨d.extent, d.stride.natAbs⟩ := by
  show ((l.dims.zip (l.dims.map fun d => decide (d.stride < 0))).map
    fun a => if a.2 then (⟨a.1.extent, -a.1.stride⟩ : Dim) else a.1) = _
  induction l.dims with
  | nil => rfl
  | cons d dims ih =>
    rw [List.map_cons, List.zip_cons_cons, List.map_cons, ih, List.map_cons]
    refine congrArg (· :: _) ?_
    dsimp only
    by_cases h : d.stride < 0
    · have habs : (d.stride.natAbs : Int) = -d.stride := by omega
      rw [if_pos (decide_eq_true h), habs]
    · have habs : (d.stride.natAbs : Int) = d.stride := by omega
      rw [if_neg (by simpa using h), habs]

theorem repeats_ofLayout (l : Layout) : (ofLayout l).layout.repeats = l.repeats := by
  have hzero : ∀ d : Dim, ((d.stride.natAbs : Int) == 0) = (d.stride == 0) := fun d => by
    rw [Bool.eq_iff_iff, beq_iff_eq, beq_iff_eq, Int.natCast_eq_zero, Int.natAbs_eq_zero]
  rw [Layout.repeats, Layout.repeats, Layout.size, shape_ofLayout, dims_ofLayout, List.any_map]
  simp only [Function.comp_def, hzero]
  rfl

theorem flips_length_shape (l : Layout) : (ofLayout l).flips.length = l.shape.length := by
  rw [length_flips, Layout.shape, List.length_map]

theorem flips_length_rowMajor (l : Layout) :
    (ofLayout l).flips.length = (Layout.rowMajor l.shape).dims.length := by
  rw [flips_length_shape]
  conv_lhs => rw [← Layout.shape_rowMajor l.shape, Layout.shape, List.length_map]

/-- The index that the forward walk visits in the place of another one. -/
def mirror (l : Layout) (index : List Int) : List Int :=
  Shape.mirror l.shape (ofLayout l).flips index

theorem mirror_mem {l : Layout} {index : List Int} (h : index ∈ l.shape.indices) :
    mirror l index ∈ l.shape.indices := Shape.mirror_mem (flips_length_shape l) h

theorem mirror_mirror {l : Layout} {index : List Int} (h : index ∈ l.shape.indices) :
    mirror l (mirror l index) = index := Shape.mirror_mirror (flips_length_shape l) h

theorem map_mirror_perm (l : Layout) : (l.shape.indices.map (mirror l)).Perm l.shape.indices :=
  Shape.map_mirror_perm (flips_length_shape l)

theorem places_ofLayout (l : Layout) :
    (ofLayout l).layout.places = l.shape.indices.map fun index => l.placeAt (mirror l index) := by
  rw [Layout.places_eq, shape_ofLayout]
  exact List.map_congr_left fun index hi => Layout.placeAt_flip l (length_flips l) hi

/-- The forward walk visits the same places in another order. -/
theorem places_perm (l : Layout) : (ofLayout l).layout.places.Perm l.places := by
  rw [places_ofLayout, Layout.places_eq]
  have h := (map_mirror_perm l).map l.placeAt
  rw [List.map_map] at h
  exact h

theorem turn_map (l : Layout) (f : List Int → Int) :
    (ofLayout l).turn (l.shape.indices.map f) =
      l.shape.indices.map fun index => f (mirror l index) := by
  have hlen : (l.shape.indices.map f).length = l.shape.size := by
    rw [List.length_map, Shape.length_indices]
  have hlookup := List.map_inj_left.mp (Layout.map_getD_rowMajor hlen)
  rw [turn, shape_ofLayout, Layout.places_eq, Layout.shape_flip _ (flips_length_rowMajor l),
    Layout.shape_rowMajor, List.map_map]
  refine List.map_congr_left fun index hi => ?_
  have hplace := Layout.placeAt_flip (Layout.rowMajor l.shape) (flips_length_rowMajor l)
    (show index ∈ (Layout.rowMajor l.shape).shape.indices by rw [Layout.shape_rowMajor]; exact hi)
  rw [Layout.shape_rowMajor] at hplace
  rw [Function.comp_apply, hplace]
  exact hlookup _ (mirror_mem hi)

theorem layout_none {l : Layout} (h : (ofLayout l).flips.contains true = false) :
    (ofLayout l).layout = l :=
  Layout.flip_none l (length_flips l) h

/-- Nothing is turned around if no axis is reversed. -/
theorem turn_none {l : Layout} {codes : List Int} (h : (ofLayout l).flips.contains true = false)
    (hlen : codes.length = l.size) : (ofLayout l).turn codes = codes := by
  rw [turn, shape_ofLayout, Layout.flip_none _ (flips_length_rowMajor l) h, Layout.places_eq,
    Layout.shape_rowMajor, List.map_map]
  exact Layout.map_getD_rowMajor hlen

/-- What is read forward and turned around is what the window holds. -/
theorem turn_places (l : Layout) (f : Int → Int) :
    (ofLayout l).turn ((ofLayout l).layout.places.map f) = l.places.map f := by
  rw [places_ofLayout, Layout.places_eq, List.map_map, List.map_map]
  have h := turn_map l fun index => f (l.placeAt (mirror l index))
  refine h.trans (List.map_congr_left fun index hi => ?_)
  rw [mirror_mirror hi]
  rfl

/-- What is turned around and written forward is written to the window. -/
theorem turn_updates {l : Layout} {codes : List Int} {s s' : Store} {buffer : Nat}
    (hlen : codes.length = l.size)
    (h : Updates s s' buffer (ofLayout l).layout.places ((ofLayout l).turn codes)) :
    Updates s s' buffer l.places codes := by
  have hcodes := Layout.map_getD_rowMajor (s := l.shape) hlen
  rw [← hcodes, turn_map, places_ofLayout] at h
  rw [← hcodes, Layout.places_eq]
  have hmirror : ∀ f : List Int → Int,
      (l.shape.indices.map fun index => f (mirror l index)) =
        (l.shape.indices.map (mirror l)).map f := by
    intro f
    rw [List.map_map]
    rfl
  rw [hmirror, hmirror fun index => codes[((Layout.rowMajor l.shape).placeAt index).toNat]?.getD 0]
    at h
  exact h.perm (map_mirror_perm l)

theorem length_turn (l : Layout) (codes : List Int) :
    ((ofLayout l).turn codes).length = l.size := by
  rw [turn, List.length_map, Layout.length_places, Layout.size, shape_ofLayout,
    Layout.shape_flip _ (flips_length_rowMajor l), Layout.shape_rowMajor]
  rfl

end ForwardWindow

namespace View

variable {v : View} {is : List Interval} {extents : Shape} {s s' : Store}

theorem signedWindow_eq_ok {l : Layout} (h : v.signedWindow is extents = .ok l) :
    l = v.layout.window is extents := by
  simp only [signedWindow] at h
  split at h
  · cases h
    rfl
  · cases h

theorem forwardWindow_eq_ok {w : ForwardWindow} (h : v.forwardWindow s is extents = .ok w) :
    w = ForwardWindow.ofLayout (v.layout.window is extents) := by
  simp only [forwardWindow] at h
  split at h
  · cases h
  split at h
  · cases h
  · cases h
    rfl

theorem readWindow_shows {out : View} (hshape : (v.layout.window is extents).shape = extents)
    (h : v.readWindow is extents s = .ok out s') :
    Extends s s' ∧
      out.Shows s' v.type extents (s.gather v.buffer (v.layout.window is extents).places) := by
  simp only [readWindow, bind_eq_ok, get_eq_ok] at h
  obtain ⟨_, _, ⟨rfl, rfl⟩, h⟩ := h
  generalize hw : v.layout.window is extents = window at *
  cases hk : v.kind with
  | host =>
    rw [hk] at h
    simp only [bind_eq_ok, ofExcept_eq_ok] at h
    obtain ⟨l, _, ⟨hl, rfl⟩, hmake⟩ := h
    obtain ⟨_, h⟩ := make_eq_ok.mp hmake
    obtain rfl : l = window := (signedWindow_eq_ok hl).trans hw
    have hlen : (s.gather v.buffer l.places).length = l.dense.size := by
      rw [length_gather, Layout.length_places, Layout.size, Layout.size, Layout.shape_dense]
    have hshow := create_shows h (Layout.dense_fills l) hlen
    rw [Layout.shape_dense, hshape] at hshow
    exact hshow
  | tensor =>
    rw [hk] at h
    simp only [bind_eq_ok, ofExcept_eq_ok, pure_eq_ok] at h
    obtain ⟨w, _, ⟨hf, rfl⟩, created, _, hmake, rfl, rfl⟩ := h
    obtain ⟨_, h⟩ := make_eq_ok.mp hmake
    obtain rfl : w = .ofLayout window := hw ▸ forwardWindow_eq_ok hf
    have hlen : ((ForwardWindow.ofLayout window).turn
        (s.gather v.buffer (ForwardWindow.ofLayout window).layout.places)).length =
          (ForwardWindow.ofLayout window).layout.dense.size := by
      rw [ForwardWindow.length_turn, Layout.size, Layout.size, Layout.shape_dense,
        ForwardWindow.shape_ofLayout]
    obtain ⟨hext, hshow⟩ := create_shows h (Layout.dense_fills _) hlen
    rw [Layout.shape_dense, ForwardWindow.shape_ofLayout, hshape, Store.gather,
      ForwardWindow.turn_places] at hshow
    exact ⟨hext, hshow.of_fields rfl rfl rfl⟩

theorem writeWindow_updates {w : View} {u : Unit} (hv : v.Within s)
    (hnodup : (v.layout.window is extents).places.Nodup)
    (hsub : ∀ p ∈ (v.layout.window is extents).places, p ∈ v.places)
    (hsize : w.size = (v.layout.window is extents).size)
    (hw : w.Steady v (v.layout.window is extents).places)
    (h : v.writeWindow is extents w s = .ok u s') :
    Updates s s' v.buffer (v.layout.window is extents).places (v.codesFrom w s) := by
  have hcells := fun p hp => hv.cells p (hsub p hp)
  have hlen := (length_codesFrom v w s).trans hsize
  simp only [writeWindow, bind_eq_ok, get_eq_ok] at h
  obtain ⟨_, _, ⟨rfl, rfl⟩, h⟩ := h
  generalize hwindow : v.layout.window is extents = window at *
  cases hk : v.kind with
  | host =>
    rw [hk] at h
    simp only [bind_eq_ok, ofExcept_eq_ok, guard_eq_ok, set_eq_ok] at h
    obtain ⟨l, _, ⟨hl, rfl⟩, _, rfl⟩ := h
    obtain rfl : l = window := (signedWindow_eq_ok hl).trans hwindow
    have hplaces := Layout.length_places l
    rw [transfer_eq_scatter hw hsub (hsize.trans hplaces.symm)]
    exact Store.scatter_updates hnodup hcells (hlen.trans hplaces.symm)
  | tensor =>
    rw [hk] at h
    simp only [bind_eq_ok, ofExcept_eq_ok, guard_eq_ok] at h
    obtain ⟨f, _, ⟨hf, rfl⟩, _, h⟩ := h
    obtain rfl : f = .ofLayout window := hwindow ▸ forwardWindow_eq_ok hf
    have hperm := ForwardWindow.places_perm window
    have hplaces : (ForwardWindow.ofLayout window).layout.places.length = window.size :=
      hperm.length_eq.trans (Layout.length_places window)
    -- What need not be turned around is turned around by doing nothing.
    have hs' : s' = s.scatter v.buffer (ForwardWindow.ofLayout window).layout.places
        ((ForwardWindow.ofLayout window).turn (v.codesFrom w s)) := by
      split_ifs at h with hflips
      · exact (set_eq_ok.mp h).symm
      · rw [ForwardWindow.turn_none (Bool.not_eq_true _ ▸ hflips) hlen, ← set_eq_ok.mp h]
        rw [← ForwardWindow.layout_none (l := window) (Bool.not_eq_true _ ▸ hflips)] at hw
        exact transfer_eq_scatter hw (fun p hp => hsub p (hperm.mem_iff.mp hp))
          (hsize.trans hplaces.symm)
    subst hs'
    refine ForwardWindow.turn_updates hlen (Store.scatter_updates (hperm.nodup_iff.mpr hnodup)
      (fun p hp => hcells p (hperm.mem_iff.mp hp)) ?_)
    rw [ForwardWindow.length_turn, hplaces]

end View

/-! ## The window of a selection -/

namespace Resolution

variable {r : Resolution} {v : View} {s s' : Store}

theorem length_dims (hr : r.inputShape = v.shape) : v.layout.dims.length = r.intervals.length := by
  rw [length_intervals, ← length_inputShape, hr]
  exact (List.length_map _).symm

theorem length_extents (r : Resolution) : r.processingShape.length = r.intervals.length := by
  rw [length_intervals, length_processingShape]

theorem shape_window (hr : r.inputShape = v.shape) :
    (v.layout.window r.intervals r.processingShape).shape = r.processingShape :=
  Layout.shape_window v.layout (length_dims hr) r.length_extents

/-- The window takes the places of the indices selected. -/
theorem places_window (hr : r.inputShape = v.shape) :
    (v.layout.window r.intervals r.processingShape).places = r.selected.map v.layout.placeAt :=
  Layout.places_window v.layout (length_dims hr) r.length_extents

theorem selected_mem_shape (hf : r.Fits) (hr : r.inputShape = v.shape) {index : List Int}
    (hi : index ∈ r.selected) : index ∈ v.layout.shape.indices := by
  show index ∈ v.shape.indices
  rw [← hr]
  exact mem_of_mem_selected hf hi

theorem selected_subset_places (hf : r.Fits) (hr : r.inputShape = v.shape) {p : Int}
    (hp : p ∈ r.selected.map v.layout.placeAt) : p ∈ v.places := by
  obtain ⟨index, hi, rfl⟩ := List.mem_map.mp hp
  exact Layout.placeAt_mem_places (selected_mem_shape hf hr hi)

theorem nodup_selected_places (hf : r.Fits) (hr : r.inputShape = v.shape) (hd : v.places.Nodup) :
    (r.selected.map v.layout.placeAt).Nodup :=
  List.Nodup.map_on (fun _ ha _ hb heq => Layout.placeAt_injOn hd
    (selected_mem_shape hf hr ha) (selected_mem_shape hf hr hb) heq) (nodup_selected hf)

theorem walk_shows {cap : Nat} {out : View} (hr : r.inputShape = v.shape)
    (h : r.walk v .extract none cap s = .ok out s') :
    Extends s s' ∧ out.Shows s' v.type r.processingShape (r.selected.map (v.elementAt s)) := by
  simp only [walk, Walker.walk, bind_eq_ok, ofExcept_eq_ok, guard_eq_ok] at h
  obtain ⟨w, _, ⟨_, rfl⟩, _, h⟩ := h
  have hshow := View.readWindow_shows (shape_window hr) h
  rw [places_window hr, Store.gather, List.map_map] at hshow
  exact hshow

theorem walk_eq_ok {cap : Nat} {mode : WalkMode} {u out : View} (hm : mode ≠ .extract)
    (h : r.walk v mode (some u) cap s = .ok out s') :
    ∃ w values s₁, Walker.ofRank r.axes.length cap = .ok w ∧
      u.reshape r.processingShape s = .ok values s₁ ∧
      v.writeWindow r.intervals r.processingShape values s₁ = .ok () s' := by
  cases mode with
  | extract => exact absurd rfl hm
  | gradient | assign =>
    simp only [walk, Walker.walk, bind_eq_ok, ofExcept_eq_ok, guard_eq_ok, pure_eq_ok] at h
    obtain ⟨w, _, ⟨hw, rfl⟩, _, values, s₁, hvalues, _, s₃, hwrite, _, rfl⟩ := h
    exact ⟨w, values, s₁, hw, hvalues, hwrite⟩

/-- A walk that writes gives the cells selected the codes of the values, in order. -/
theorem walk_updates {cap : Nat} {mode : WalkMode} {u out : View} (hm : mode ≠ .extract)
    (hf : r.Fits) (hr : r.inputShape = v.shape) (hv : v.Within s) (hd : v.places.Nodup)
    (hu : u.Within s) (ht : u.type = v.type)
    (hsteady : u.Steady v (r.selected.map v.layout.placeAt))
    (h : r.walk v mode (some u) cap s = .ok out s') :
    Updates s s' v.buffer (r.selected.map v.layout.placeAt) (u.codes s) := by
  obtain ⟨_, values, s₁, _, hvalues, hwrite⟩ := walk_eq_ok hm h
  obtain ⟨hext, hshow⟩ := View.reshape_shows hu hvalues
  have hupd := View.writeWindow_updates (hv.extends hext)
    (by rw [places_window hr]; exact nodup_selected_places hf hr hd)
    (by rw [places_window hr]; exact fun p hp => selected_subset_places hf hr hp)
    (by rw [hshow.size_eq, Layout.size, shape_window hr])
    (by rw [places_window hr]; exact hsteady.follow hv.buffer (View.reshape_from hvalues)) hwrite
  rw [places_window hr, View.codesFrom_self (hshow.type_eq.trans ht), hshow.codes_eq] at hupd
  exact hext.updates hupd

end Resolution

end Hyperslab
