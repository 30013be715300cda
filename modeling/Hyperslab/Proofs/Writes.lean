import Hyperslab.Proofs.Returns

/-!
# Writes to a selection

A write puts the codes of the values into the cells selected, in order, and changes
no other cell.  It goes through the window of the selection, so one that succeeded can
be repeated, and what it wrote can be sliced.
-/

namespace Hyperslab

open Store (Extends Updates)

theorem View.writeAll_updates {v u : View} {s s' : Store} {x : Unit} (hv : v.Within s)
    (hd : v.places.Nodup) (hu : u.Within s) (ht : u.type = v.type)
    (hsteady : u.Steady v v.places) (h : v.writeAll u s = .ok x s') :
    Updates s s' v.buffer v.places (u.codes s) := by
  simp only [writeAll, bind_eq_ok, modify_eq_ok] at h
  obtain ⟨values, s₁, hvalues, rfl⟩ := h
  have hsize := size_of_reshape hvalues
  obtain ⟨hext, hshow⟩ := reshape_shows hu hvalues
  have hlen : values.size = v.places.length := by
    rw [hshow.size_eq, places, Layout.length_places]
    rfl
  rw [transfer_eq_scatter (hsteady.follow hv.buffer (reshape_from hvalues)) (fun p hp => hp) hlen,
    codesFrom_self (hshow.type_eq.trans ht), hshow.codes_eq]
  refine hext.updates (Store.scatter_updates hd (fun p hp => hext.hasCell (hv.cells p hp)) ?_)
  rw [length_codes, ← hlen, hshow.size_eq]
  exact hsize.symm

namespace Config

/-- A write of the elements of `u` to the elements of `v` that a resolution selects. -/
structure Writes (c : Config) (v : View) (r : Resolution) (u : View) (s s' : Store) : Prop where
  fits : r.Fits
  input : r.inputShape = v.shape
  within : v.Within s
  distinct : v.places.Nodup
  values : u.Within s
  type : u.type = v.type
  shape : u.shape = r.finalShape
  steady : u.Steady v (r.selected.map v.layout.placeAt)
  run : ∃ mode x, mode ≠ .extract ∧ c.write v r mode u s = .ok x s'

namespace Writes

variable {c : Config} {r : Resolution} {v u : View} {s s' : Store}

/-- A write updates the cells selected and no others. -/
theorem updates (h : c.Writes v r u s s') :
    Updates s s' v.buffer (r.selected.map v.layout.placeAt) (u.codes s) := by
  obtain ⟨mode, x, hmode, hrun⟩ := h.run
  unfold write at hrun
  split_ifs at hrun with haxes hsize
  · have hidentity := Resolution.isIdentity_of_rank_zero
      (List.length_eq_zero_iff.mpr (List.isEmpty_iff.mp haxes))
    have hplaces : v.places = v.shape.indices.map v.layout.placeAt := Layout.places_eq v.layout
    have hsteady := h.steady
    rw [Resolution.selected_identity hidentity, h.input, ← hplaces] at hsteady ⊢
    exact View.writeAll_updates h.within h.distinct h.values h.type hsteady hrun
  · simp only [bind_eq_ok, pure_eq_ok] at hrun
    obtain ⟨_, _, hwalk, _, rfl⟩ := hrun
    exact Resolution.walk_updates hmode h.fits h.input h.within h.distinct h.values h.type h.steady
      hwalk
  · obtain ⟨_, rfl⟩ := pure_eq_ok.mp hrun
    have hsize : r.size = 0 := Decidable.of_not_not hsize
    have hcodes : u.codes s = [] := by
      refine List.length_eq_zero_iff.mp ?_
      rw [View.length_codes, h.shape, Resolution.size_finalShape h.fits, hsize]
    rw [List.length_eq_zero_iff.mp (r.length_selected.trans hsize), hcodes]
    exact (Extends.refl s).updates_nil v.buffer

/-- The elements selected are those of the values, and the others are as they were. -/
theorem elements (h : c.Writes v r u s s') : r.selected.map (v.elementAt s') = u.codes s ∧
    ∀ index ∈ v.shape.indices, index ∉ r.selected → v.elementAt s' index = v.elementAt s index := by
  have hupd := h.updates
  refine ⟨?_, fun index hi hn => hupd.frame v.buffer h.within.buffer _ fun _ hm => hn ?_⟩
  · rw [← hupd.written, Store.gather, List.map_map]
    rfl
  · obtain ⟨index', hi', heq⟩ := List.mem_map.mp hm
    rwa [← Layout.placeAt_injOn h.distinct (Resolution.selected_mem_shape h.fits h.input hi') hi
      heq]

/-- A write to a selection that is not empty goes through its window. -/
theorem walked (h : c.Writes v r u s s') (haxes : r.axes.length ≠ 0) (hsize : r.size ≠ 0) :
    ∃ w values s₁, Walker.ofRank r.axes.length c.maxRank = .ok w ∧
      u.reshape r.processingShape s = .ok values s₁ ∧ Extends s s₁ ∧
      v.writeWindow r.intervals r.processingShape values s₁ = .ok () s' := by
  obtain ⟨mode, x, hmode, hrun⟩ := h.run
  have haxes : ¬r.axes.isEmpty = true := fun he =>
    haxes (List.length_eq_zero_iff.mpr (List.isEmpty_iff.mp he))
  rw [write, if_neg haxes, if_pos hsize] at hrun
  simp only [bind_eq_ok, pure_eq_ok] at hrun
  obtain ⟨_, _, hwalk, _, rfl⟩ := hrun
  obtain ⟨w, values, s₁, hw, hvalues, hwrite⟩ := Resolution.walk_eq_ok hmode hwalk
  exact ⟨w, values, s₁, hw, hvalues, (View.reshape_shows h.values hvalues).1, hwrite⟩

/-- The window can be written again. -/
theorem takes (h : c.Writes v r u s s') (haxes : r.axes.length ≠ 0) (hsize : r.size ≠ 0) :
    v.Takes s r.intervals r.processingShape := by
  obtain ⟨_, _, _, _, _, hext, hwrite⟩ := h.walked haxes hsize
  exact (View.writeWindow_returns_iff.mp ⟨_, hwrite⟩).of_extent
    (hext.extent v.buffer h.within.buffer).symm

/-- A write that succeeded can be repeated with other values of the same kind and shape. -/
theorem write_returns {u' : View} {t : Store} {mode : WalkMode} (h : c.Writes v r u s s')
    (hmode : mode ≠ .extract) (ht : t.extent v.buffer = s.extent v.buffer)
    (hkind : u'.kind = u.kind) (hshape : u'.shape = r.finalShape) :
    ∃ x t', c.write v r mode u' t = .ok x t' := by
  refine write_of_takes hmode h.fits h.input hshape fun haxes hsize => ?_
  obtain ⟨w, _, _, hw, hreshape, _, _⟩ := h.walked haxes hsize
  exact ⟨⟨w, hw⟩, fun hhost => View.reshape_rank hreshape (hkind.symm.trans hhost),
    (h.takes haxes hsize).of_extent ht⟩

/-- What was written can be sliced where an array of its shape can be made. -/
theorem slice_returns {b : Backend} {spec : Value} {w : Workspace} (h : c.Writes v r u s w.store)
    (hb : Backend.choose c.backend c.device [.array v] = .ok b) (hkind : v.kind = b.kind)
    (hr : Resolution.ofValue v.shape spec = .ok r)
    (hshape : w.store.Affords v.kind v.type u.shape) :
    ∃ out w', c.slice (.array v) spec w = .ok out w' := by
  rw [h.shape] at hshape
  refine Config.slice_returns (h.within.updates h.updates) hb hkind hr hshape
    (fun haxes hsize => ?_) fun haxes hsize => (h.takes haxes hsize).opens.of_extent
      (h.updates.extent v.buffer h.within.buffer)
  obtain ⟨w, _, _, hw, _⟩ := h.walked haxes hsize
  exact ⟨w, hw⟩

end Writes

end Config

end Hyperslab
