import Hyperslab.Copy
import Hyperslab.Proofs.Windows

/-!
# Copies in bulk

Two cheap routes of an extraction give what the strided walk gives.  Everything, in
another shape, is every index in order, and a run of the first axis is a run of the
codes.
-/

namespace Hyperslab

open Store (Extends Updates HasCell)

/-- A run of blocks of one length, out of all blocks. -/
theorem take_drop_flatMap_range {α : Type} {a m n size : Nat} {block : Nat → List α}
    (hblock : ∀ k, (block k).length = size) (h : a + m ≤ n) :
    (((List.range n).flatMap block).drop (a * size)).take (m * size) =
      (List.range m).flatMap fun k => block (a + k) := by
  have hlen : ∀ (count from' : Nat),
      ((List.range count).flatMap fun k => block (from' + k)).length = count * size := by
    intro count from'
    rw [List.length_flatMap]
    simp only [hblock, List.map_const', List.length_range, List.sum_replicate_nat]
  obtain ⟨t, rfl⟩ := Nat.exists_eq_add_of_le h
  rw [List.range_add, List.range_add, List.append_assoc, List.flatMap_append, List.flatMap_append,
    List.flatMap_map, List.flatMap_map]
  have hfirst := hlen a 0
  simp only [Nat.zero_add] at hfirst
  rw [List.drop_left' hfirst, List.take_left' (hlen m a)]

namespace View

variable {v out : View} {s s' : Store} {type : ElementType}

/-! ## Everything in another shape -/

theorem copyIdentity_shows {r : Resolution} {zeroCopy : Bool} (hv : v.Within s)
    (hr : r.inputShape = v.shape) (hi : r.isIdentity = true)
    (h : v.copyIdentity r zeroCopy s = .ok out s') :
    Extends s s' ∧ out.Shows s' v.type r.finalShape (r.selected.map (v.elementAt s)) := by
  simp only [copyIdentity, bind_eq_ok] at h
  obtain ⟨reshaped, s₁, hreshape, hsettle⟩ := h
  obtain ⟨hext, hshow⟩ := reshape_shows hv hreshape
  obtain ⟨hext', hshow'⟩ := settle_shows hshow hsettle
  rw [codes_eq_map, ← hr, ← Resolution.selected_identity hi] at hshow'
  exact ⟨hext.trans hext', hshow'⟩

/-! ## A run of the first axis -/

/-- A segment of an array with one axis is a run of its places. -/
theorem segment_places {n a b : Nat} (hv : v.shape = [n]) (ha : a ≤ n) (hb : b ≤ n) :
    (v.segment a b).shape = [b - a] ∧ (v.segment a b).places = (v.places.drop a).take (b - a) := by
  have hdims : v.layout.dims.length = [Interval.mk a b 1].length := by
    have h := congrArg List.length hv
    rwa [shape, Layout.shape, List.length_map] at h
  have hinterval :
      Interval.ofBounds v.size (some (a : Int)) (some (b : Int)) 1 = Interval.mk a b 1 := by
    have hsize : v.size = n := (congrArg Shape.size hv).trans (Nat.mul_one n)
    rw [Interval.ofBounds, Interval.clamp, Interval.clamp, Interval.limits, if_pos Int.one_pos,
      hsize]
    show Interval.mk (max 0 (min (if (a : Int) < 0 then _ else _) _))
      (max 0 (min (if (b : Int) < 0 then _ else _) _)) 1 = _
    rw [if_neg (by omega), if_neg (by omega), Interval.mk.injEq]
    omega
  have hcount : (⟨a, b, 1⟩ : Interval).size = b - a := by
    rw [Interval.size_of_step_one rfl]
    show ((b : Int) - a).toNat = b - a
    omega
  constructor
  · show Layout.shape (v.layout.window _ _) = _
    rw [hinterval, hcount, Layout.shape_window v.layout hdims rfl]
  · show Layout.places (v.layout.window _ _) = (v.layout.places.drop a).take (b - a)
    rw [hinterval, hcount, Layout.places_window v.layout hdims rfl, Layout.places_eq,
      show v.layout.shape = [n] from hv, Shape.indices_singleton, Shape.indices_singleton]
    rw [List.map_map, List.map_map, List.map_map, ← List.map_drop, ← List.map_take]
    refine List.ext_getElem (by simp; omega) fun k hk hk' => ?_
    simp [Interval.index]

/-- A window onto a run of the places shows a run of the codes. -/
theorem Shows.run {a n : Nat} {shape shape' : Shape} {codes : List Int} {l : Layout}
    (hv : v.Shows s type shape codes) (hshape : l.shape = shape')
    (hplaces : l.places = (v.places.drop a).take n) :
    (v.withLayout l).Shows s type shape' ((codes.drop a).take n) := by
  refine ⟨⟨hv.within.buffer, fun p hp => hv.within.cells p ?_⟩, hv.type_eq, hshape, ?_⟩
  · have hp : p ∈ l.places := hp
    rw [hplaces] at hp
    exact List.mem_of_mem_drop (List.mem_of_mem_take hp)
  · rw [← hv.codes_eq]
    show s.gather v.buffer l.places = _
    rw [hplaces, Store.gather, List.map_take, List.map_drop]
    rfl

theorem segment_shows {n a b : Nat} {codes : List Int} (hv : v.Shows s type [n] codes)
    (ha : a ≤ n) (hb : b ≤ n) :
    (v.segment a b).Shows s type [b - a] ((codes.drop a).take (b - a)) := by
  obtain ⟨hshape, hplaces⟩ := segment_places hv.shape_eq ha hb
  exact hv.run hshape hplaces

/-- The indices of a run of the first axis. -/
theorem selected_lead {r : Resolution} {lead : AxisSelection} {rest : List AxisSelection}
    (haxes : r.axes = lead :: rest) (hstep : lead.interval.step = 1)
    (hrest : rest.all (·.isWhole) = true) :
    r.selected = (List.range lead.size).flatMap fun (k : Nat) =>
      (Shape.indices (rest.map (·.extent))).map ((lead.interval.start + (k : Int)) :: ·) := by
  have hshape : r.processingShape = lead.size :: rest.map (·.extent) := by
    rw [Resolution.processingShape, haxes, List.map_cons, sizes_whole hrest]
  have hintervals : r.intervals = lead.interval :: rest.map (·.interval) := by
    rw [Resolution.intervals, haxes, List.map_cons]
  rw [Resolution.selected, hshape, Shape.indices_cons, List.map_flatMap]
  refine flatMap_range_congr fun k _ => ?_
  rw [List.map_map]
  refine List.map_congr_left fun index hi => ?_
  show r.indexAt ((k : Int) :: index) = _
  rw [Resolution.indexAt, hintervals, List.zipWith_cons_cons,
    visited_whole hrest ((Shape.length_of_mem_indices hi).trans (List.length_map _)),
    Interval.index, hstep, Int.one_mul]

/-- What is told of each index of the run is a run of what is told of every index. -/
theorem map_selected_lead {α : Type} {r : Resolution} {lead : AxisSelection}
    {rest : List AxisSelection} (f : List Int → α) (hf : r.Fits) (hr : r.inputShape = v.shape)
    (haxes : r.axes = lead :: rest) (hstep : lead.interval.step = 1)
    (hrest : rest.all (·.isWhole) = true) :
    r.selected.map f =
      ((v.shape.indices.map f).drop
        (lead.interval.start.toNat * Shape.size (rest.map (·.extent)))).take
        (lead.size * Shape.size (rest.map (·.extent))) := by
  have hlead : lead.interval.Fits lead.extent := (hf lead (haxes ▸ List.mem_cons_self)).interval
  have hlow : 0 ≤ lead.interval.start ∧ lead.interval.start.toNat + lead.size ≤ lead.extent := by
    have hbounds := hlead.of_step_one hstep
    rw [AxisSelection.size, Interval.size_of_step_one hstep]
    omega
  have hshape : v.shape = lead.extent :: rest.map (·.extent) := by
    rw [← hr, Resolution.inputShape, haxes, List.map_cons]
  rw [hshape, Shape.indices_cons, List.map_flatMap,
    take_drop_flatMap_range (fun k => by rw [List.length_map, List.length_map,
      Shape.length_indices]) hlow.2, selected_lead haxes hstep hrest, List.map_flatMap]
  refine flatMap_range_congr fun k _ => ?_
  have hcast : lead.interval.start + (k : Int) = ((lead.interval.start.toNat + k : Nat) : Int) := by
    omega
  rw [hcast]

theorem flat_shows (hv : v.Within s) (h : v.flat s = .ok out s') :
    Extends s s' ∧ out.Shows s' v.type [v.size] (v.codes s) := by
  simp only [flat, guard_eq_ok] at h
  exact reshape_shows hv h.2

/-- The run of a flat array that a selection of a run of the first axis takes. -/
theorem leadRun_places {r : Resolution} {lead : AxisSelection} {rest : List AxisSelection}
    {flat : View} (hflat : flat.shape = [v.size]) (hf : r.Fits) (hr : r.inputShape = v.shape)
    (haxes : r.axes = lead :: rest) (hl : r.isLead = true) :
    let inner := Shape.size (rest.map (·.extent))
    let run := flat.segment (lead.interval.start * (inner : Int))
      (lead.interval.stop * (inner : Int))
    run.shape = [lead.size * inner] ∧
      run.places = (flat.places.drop (lead.interval.start.toNat * inner)).take
        (lead.size * inner) := by
  rw [Resolution.isLead, haxes, Bool.and_eq_true, beq_iff_eq] at hl
  obtain ⟨hstep, hrest⟩ := hl
  obtain ⟨⟨hlow, hlow'⟩, hstop, hstop'⟩ :=
    (hf lead (haxes ▸ List.mem_cons_self)).interval.of_step_one hstep
  have hvsize : v.size = lead.extent * Shape.size (rest.map (·.extent)) := by
    show Shape.size v.shape = _
    rw [← hr, Resolution.inputShape, haxes, List.map_cons, Shape.size_cons]
  dsimp only
  generalize Shape.size (rest.map (·.extent)) = inner at *
  have hfirst : lead.interval.start * (inner : Int) =
      ((lead.interval.start.toNat * inner : Nat) : Int) := by
    rw [Int.natCast_mul, Int.toNat_of_nonneg hlow]
  have hlast : lead.interval.stop * (inner : Int) =
      ((lead.interval.stop.toNat * inner : Nat) : Int) := by
    rw [Int.natCast_mul, Int.toNat_of_nonneg hstop]
  have hsegment := segment_places hflat
    (a := lead.interval.start.toNat * inner) (b := lead.interval.stop.toNat * inner)
    (by rw [hvsize]; exact Nat.mul_le_mul_right _ (by omega))
    (by rw [hvsize]; exact Nat.mul_le_mul_right _ (by omega))
  have hcount : lead.interval.stop.toNat - lead.interval.start.toNat = lead.size := by
    rw [AxisSelection.size, Interval.size_of_step_one hstep]
    omega
  rw [← Nat.sub_mul, hcount] at hsegment
  rw [hfirst, hlast]
  exact hsegment

/-- The run shows the elements selected. -/
theorem leadRun_shows {r : Resolution} {lead : AxisSelection} {rest : List AxisSelection}
    {flat : View} (hv : v.Within s) (hf : r.Fits) (hr : r.inputShape = v.shape)
    (haxes : r.axes = lead :: rest) (hl : r.isLead = true) (h : v.flat s = .ok flat s') :
    Extends s s' ∧
      (flat.segment (lead.interval.start * (Shape.size (rest.map (·.extent)) : Int))
        (lead.interval.stop * (Shape.size (rest.map (·.extent)) : Int))).Shows s' v.type
        [lead.size * Shape.size (rest.map (·.extent))] (r.selected.map (v.elementAt s)) := by
  obtain ⟨hext, hshow⟩ := flat_shows hv h
  obtain ⟨hshape, hplaces⟩ := leadRun_places hshow.shape_eq hf hr haxes hl
  rw [Resolution.isLead, haxes, Bool.and_eq_true, beq_iff_eq] at hl
  rw [map_selected_lead (v.elementAt s) hf hr haxes hl.1 hl.2, ← codes_eq_map]
  exact ⟨hext, hshow.run hshape hplaces⟩

theorem copyLead_shows {r : Resolution} {zeroCopy : Bool} (hv : v.Within s) (hf : r.Fits)
    (hr : r.inputShape = v.shape) (hl : r.isLead = true)
    (h : v.copyLead r zeroCopy s = .ok out s') :
    Extends s s' ∧ out.Shows s' v.type r.finalShape (r.selected.map (v.elementAt s)) := by
  unfold copyLead at h
  cases haxes : r.axes with
  | nil =>
    rw [haxes] at h
    cases h
  | cons lead rest =>
    simp only [haxes, bind_eq_ok] at h
    obtain ⟨flat, s₁, hflat, run, s₂, hrun, hsettle⟩ := h
    obtain ⟨hext₁, hshow₁⟩ := leadRun_shows hv hf hr haxes hl hflat
    obtain ⟨hext₂, hshow₂⟩ := reshape_shows hshow₁.within hrun
    rw [hshow₁.codes_eq, hshow₁.type_eq] at hshow₂
    obtain ⟨hext₃, hshow₃⟩ := settle_shows hshow₂ hsettle
    exact ⟨(hext₁.trans hext₂).trans hext₃, hshow₃⟩

end View

end Hyperslab
