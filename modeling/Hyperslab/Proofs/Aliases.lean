import Hyperslab.Proofs.Origins

/-!
# Results with cells of their own, and results that borrow them

An extraction that settles on a copy, and one that walks or copies rows, gives an
array in new cells.  One that takes everything or a run of memory and need not copy
gives the very cells selected: axes of extent one never stand in the way of another
shape, and a run of memory can be given any shape.
-/

namespace Hyperslab

open Store (Extends)

namespace View

variable {v out : View} {r : Resolution} {s s₁ s' : Store}

/-! ## New cells -/

/-- The array has the first cells of a buffer that was not there before, one for each element. -/
structure Fresh (s : Store) (out : View) : Prop where
  buffer : s.buffers.size ≤ out.buffer
  fills : out.layout.Fills

theorem Fresh.of_later (h : Fresh s₁ out) (hs : Extends s s₁) : Fresh s out :=
  ⟨Nat.le_trans hs.count h.buffer, h.fills⟩

theorem create_fresh {kind : ArrayKind} {type : ElementType} {l : Layout} {codes : List Int}
    (hl : l.Fills) (h : create kind type l codes s = .ok out s') : Fresh s out := by
  rw [create_eq] at h
  cases h
  exact ⟨Nat.le_refl _, hl⟩

theorem make_fresh {kind : ArrayKind} {type : ElementType} {l : Layout} {codes : List Int}
    (hl : l.Fills) (h : make kind type l codes s = .ok out s') : Fresh s out :=
  create_fresh hl (make_eq_ok.mp h).2

theorem copy_fresh (h : v.copy s = .ok out s') : Fresh s out := by
  obtain ⟨w, hw, rfl⟩ := copy_eq_ok h
  have hnew := create_fresh (Layout.dense_fills v.layout) hw
  exact ⟨hnew.buffer, hnew.fills⟩

theorem zeros_fresh {kind : ArrayKind} {type : ElementType} {shape : Shape}
    (h : zeros kind type shape s = .ok out s') : Fresh s out := by
  obtain ⟨rfl, _⟩ := zeros_spec h
  exact ⟨Nat.le_refl _, Layout.rowMajor_fills shape⟩

/-- An array in new cells keeps them under another shape, or has still newer ones. -/
theorem Fresh.reshape {shape : Shape} (hv : Fresh s v) (hs : Extends s s₁)
    (h : v.reshape shape s₁ = .ok out s') : Fresh s out := by
  have hsize := size_of_reshape h
  rcases reshape_eq_ok h with ⟨rfl, l, rfl, hshape, hplaces⟩ | ⟨_, w, hw, rfl⟩
  · refine ⟨hv.buffer, ?_⟩
    have hl : l.size = v.layout.size := (congrArg Shape.size hshape).trans hsize
    show l.places.Perm ((List.range l.size).map fun (n : Nat) => (n : Int))
    rw [hplaces, hl]
    exact hv.fills
  · have hnew := create_fresh (Layout.rowMajor_fills shape) hw
    exact ⟨Nat.le_trans hs.count hnew.buffer, hnew.fills⟩

theorem copyIdentity_fresh (h : v.copyIdentity r false s = .ok out s') : Fresh s out := by
  simp only [copyIdentity, bind_eq_ok] at h
  obtain ⟨w, s₁, hw, h⟩ := h
  exact (copy_fresh h).of_later ((v.reshape_yields r.finalShape s).of_ok hw).kept

theorem copyLead_fresh (h : v.copyLead r false s = .ok out s') : Fresh s out := by
  unfold copyLead at h
  cases haxes : r.axes with
  | nil =>
    rw [haxes] at h
    cases h
  | cons lead rest =>
    simp only [haxes, bind_eq_ok] at h
    obtain ⟨flat, s₁, hflat, run, s₂, hrun, h⟩ := h
    have hext := ((v.flat_yields s).of_ok hflat).kept
    exact (copy_fresh h).of_later (hext.trans ((View.reshape_yields _ _ s₁).of_ok hrun).kept)

theorem copyPlane_fresh (h : v.copyPlane r none s = .ok out s') : Fresh s out := by
  unfold copyPlane at h
  generalize r.intervals = is at h
  match is with
  | [] | [_] | _ :: _ :: _ :: _ => cases h
  | [rows, cols] =>
    simp only [bind_eq_ok, pure_eq_ok] at h
    obtain ⟨zeros, _, hzeros, _, _, _, _, _, _, rfl, _⟩ := h
    exact zeros_fresh hzeros

theorem readWindow_fresh {is : List Interval} {extents : Shape}
    (h : v.readWindow is extents s = .ok out s') : Fresh s out := by
  simp only [readWindow, bind_eq_ok, get_eq_ok] at h
  obtain ⟨_, _, ⟨rfl, rfl⟩, h⟩ := h
  cases hk : v.kind with
  | host =>
    rw [hk] at h
    simp only [bind_eq_ok, ofExcept_eq_ok] at h
    obtain ⟨l, _, ⟨_, rfl⟩, h⟩ := h
    exact make_fresh (Layout.dense_fills l) h
  | tensor =>
    rw [hk] at h
    simp only [bind_eq_ok, ofExcept_eq_ok, pure_eq_ok] at h
    obtain ⟨w, _, ⟨_, rfl⟩, created, _, h, rfl, _⟩ := h
    have hnew := make_fresh (Layout.dense_fills _) h
    exact ⟨hnew.buffer, hnew.fills⟩

/-! ## The cells of the source -/

/-- The array has the cells selected, in row-major order of the processing shape. -/
structure Borrows (v : View) (r : Resolution) (out : View) : Prop where
  buffer : out.buffer = v.buffer
  places : out.places = r.selected.map v.layout.placeAt

theorem copyIdentity_borrows (hf : r.Fits) (hr : r.inputShape = v.shape)
    (hi : r.isIdentity = true) (h : v.copyIdentity r true s = .ok out s') : v.Borrows r out := by
  simp only [copyIdentity, bind_eq_ok, settle, if_pos, pure_eq_ok] at h
  obtain ⟨w, s₁, hw, rfl, rfl⟩ := h
  have hone := Resolution.filter_finalShape hf
  rw [Resolution.processingShape_of_identity hi, hr] at hone
  obtain ⟨rfl, l, rfl, _, hplaces⟩ :=
    reshape_in_place (Layout.reshape?_of_filter (size_of_reshape hw) hone) hw
  refine ⟨rfl, ?_⟩
  show l.places = _
  rw [hplaces, Resolution.selected_identity hi, hr]
  exact Layout.places_eq v.layout

theorem copyLead_borrows (hf : r.Fits) (hr : r.inputShape = v.shape) (hl : r.isLead = true)
    (hc : v.layout.isContiguous = true) (h : v.copyLead r true s = .ok out s') :
    v.Borrows r out := by
  unfold copyLead at h
  cases haxes : r.axes with
  | nil =>
    rw [haxes] at h
    cases h
  | cons lead rest =>
    simp only [haxes, bind_eq_ok, settle, if_pos, pure_eq_ok, flat, guard_eq_ok] at h
    obtain ⟨flat, s₁, ⟨_, hflat⟩, run, s₂, hrun, rfl, rfl⟩ := h
    obtain ⟨rfl, l, rfl, hshape, hplaces⟩ := reshape_contiguous hc hflat
    have hflatShape : (v.withLayout l).shape = [v.size] := hshape
    obtain ⟨hrunShape, hrunPlaces⟩ := leadRun_places hflatShape hf hr haxes hl
    -- The run has one axis, so its final shape is a window onto it.
    obtain ⟨d, hd⟩ := List.length_eq_one_iff.mp
      ((List.length_map _).symm.trans (congrArg List.length hrunShape))
    obtain ⟨rfl, l', rfl, _, hplaces'⟩ :=
      reshape_in_place (Layout.reshape?_of_axis hd (size_of_reshape hrun)) hrun
    rw [Resolution.isLead, haxes, Bool.and_eq_true, beq_iff_eq] at hl
    refine ⟨rfl, ?_⟩
    show l'.places = _
    rw [hplaces', hrunPlaces, map_selected_lead v.layout.placeAt hf hr haxes hl.1 hl.2]
    show (List.drop _ l.places).take _ = _
    rw [hplaces, places, Layout.places_eq]
    rfl

end View

/-! ## Extraction -/

theorem Resolution.walk_fresh {r : Resolution} {v out : View} {cap : Nat} {s s' : Store}
    (h : r.walk v .extract none cap s = .ok out s') : View.Fresh s out := by
  simp only [walk, Walker.walk, bind_eq_ok, ofExcept_eq_ok, guard_eq_ok] at h
  obtain ⟨w, _, ⟨_, rfl⟩, _, h⟩ := h
  exact View.readWindow_fresh h

namespace Config

variable {c : Config} {b : Backend} {v out : View} {r : Resolution} {route : Route} {s s' : Store}

/-- The routes on which a window of the source may be the result. -/
def Borrowing (c : Config) (route : Route) : Prop :=
  c.zeroCopy = true ∧ (route = .identity ∨ route = .lead)

theorem extract_fresh (hc : ¬c.Borrowing route) (h : c.extract v r route s = .ok out s') :
    View.Fresh s out := by
  cases route with
  | identity =>
    have hz : c.zeroCopy = false := by simpa [Borrowing] using hc
    rw [extract, hz] at h
    exact View.copyIdentity_fresh h
  | lead =>
    have hz : c.zeroCopy = false := by simpa [Borrowing] using hc
    rw [extract, hz] at h
    exact View.copyLead_fresh h
  | rows =>
    simp only [extract] at h
    split at h
    · exact View.zeros_fresh h
    · exact View.copyPlane_fresh h
  | walk =>
    simp only [extract] at h
    split at h
    · exact View.zeros_fresh h
    · simp only [bind_eq_ok] at h
      obtain ⟨walked, s₁, hwalk, h⟩ := h
      exact (Resolution.walk_fresh hwalk).reshape ((r.walk_yields v c.maxRank s).of_ok hwalk).kept h

theorem extract_borrows (hc : c.Borrowing route) (hf : r.Fits) (hr : r.inputShape = v.shape)
    (hroute : c.Serves b v r route) (h : c.extract v r route s = .ok out s') :
    v.Borrows r out := by
  obtain ⟨hz, rfl | rfl⟩ := hc
  · rw [extract, hz] at h
    exact View.copyIdentity_borrows hf hr hroute h
  · rw [extract, hz] at h
    exact View.copyLead_borrows hf hr hroute.1 hroute.2.1 h

/-- A slice has the cells selected, or new ones. -/
theorem slice_borrows_or_fresh {spec : Value} {w w' : Workspace}
    (hr : Resolution.ofValue v.shape spec = .ok r) (h : c.slice (.array v) spec w = .ok out w') :
    v.Borrows r out ∨ View.Fresh w.store out := by
  obtain ⟨b, source, s₁, r', route, _, hsource, hr', hroute, hmade, _⟩ := slice_eq_ok h
  rw [Operand.toView, ofExcept_eq_ok] at hsource
  obtain ⟨hsource, rfl⟩ := hsource
  obtain ⟨writeable, start, rfl, _⟩ := View.ofKind_eq_ok hsource
  obtain rfl : r = r' := Except.ok.inj (hr.symm.trans hr')
  obtain ⟨hfits, hinput⟩ := Resolution.ofValue_fits hr
  by_cases hc : c.Borrowing route
  · obtain ⟨hbuffer, hplaces⟩ := extract_borrows (v := { v with kind := b.kind, writeable, start })
      hc hfits hinput (route_serves hroute) hmade
    exact .inl ⟨hbuffer, hplaces⟩
  · exact .inr (extract_fresh hc hmade)

end Config

end Hyperslab
