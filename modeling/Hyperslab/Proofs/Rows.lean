import Hyperslab.Proofs.Copies

/-!
# Rows that are copied one by one

`rowIndices` are the indices of a run of one row.  Copying a row updates that row
of the target, the rows of a target are disjoint, and the source has none of their
cells, so a run of row copies updates all of them with what the source held at first.
-/

namespace Hyperslab

open Store (Extends Updates HasCell)

/-- The indices of `count` elements of row `i`, from column `first` on. -/
def rowIndices (i first : Int) (count : Nat) : List (List Int) :=
  (List.range count).map fun (k : Nat) => [i, first + k]

theorem indices_pair (m n : Nat) :
    Shape.indices [m, n] = (List.range m).flatMap fun (a : Nat) => rowIndices a 0 n := by
  rw [Shape.indices_cons]
  refine flatMap_range_congr fun a _ => ?_
  rw [Shape.indices_singleton, List.map_map]
  refine List.map_congr_left fun k _ => ?_
  show [(a : Int), (k : Int)] = [(a : Int), 0 + (k : Int)]
  rw [Int.zero_add]

theorem rowIndices_mem {m n : Nat} {i first : Int} {count : Nat} (hi : 0 ≤ i ∧ i < m)
    (hfirst : 0 ≤ first) (hlast : first + count ≤ n) {index : List Int}
    (h : index ∈ rowIndices i first count) : index ∈ Shape.indices [m, n] := by
  obtain ⟨k, hk, rfl⟩ := List.mem_map.mp h
  have hk := List.mem_range.mp hk
  refine Shape.cons_mem_indices.mpr ⟨hi, Shape.cons_mem_indices.mpr ⟨by omega, ?_⟩⟩
  exact Shape.mem_indices_nil.mpr rfl

/-- The indices of a run of rows, the first of them set apart. -/
theorem rowIndices_succ (i first : Int) (count rows : Nat) :
    ((List.range (rows + 1)).flatMap fun (a : Nat) => rowIndices (i + a) first count) =
      rowIndices i first count ++
        (List.range rows).flatMap fun (a : Nat) => rowIndices (i + 1 + a) first count := by
  rw [List.range_succ_eq_map, List.flatMap_cons, List.flatMap_map]
  congr 1
  · rw [Int.natCast_zero, Int.add_zero]
  · refine flatMap_range_congr fun a _ => ?_
    rw [show i + ((a + 1 : Nat) : Int) = i + 1 + a by omega]

theorem nodup_rowIndices (i first : Int) (count : Nat) : (rowIndices i first count).Nodup :=
  List.nodup_range.map fun a b hab => by simpa using hab

namespace View

variable {v out target source : View} {s s' : Store} {m n m' n' : Nat}

theorem row_eq_ok {i : Int} (hshape : v.shape = [m, n]) (hi : 0 ≤ i ∧ i < m)
    (h : v.row i = .ok out) : ∃ l, out = v.withLayout l ∧ l.shape = [n] ∧
      ∀ k, l.placeAt [k] = v.layout.placeAt [i, k] := by
  unfold row at h
  have hdims : v.layout.dims.map (·.extent) = [m, n] := hshape
  match hd : v.layout.dims with
  | [] | [_] | _ :: _ :: _ :: _ => rw [hd] at hdims; simp at hdims
  | [rows, cols] =>
    rw [hd, List.map_cons, List.map_cons, List.map_nil, List.cons.injEq, List.cons.injEq] at hdims
    obtain ⟨hrows, hcols, _⟩ := hdims
    rw [hd] at h
    simp only [hrows, if_neg (Int.not_lt.mpr hi.1), if_pos hi] at h
    cases h
    refine ⟨_, rfl, congrArg (· :: []) hcols, fun k => ?_⟩
    simp only [Layout.placeAt, Layout.travel, hd, Int.add_zero, Int.add_assoc]

theorem row_places {l : Layout} {i : Int} (hshape : l.shape = [n])
    (hplace : ∀ k, l.placeAt [k] = v.layout.placeAt [i, k]) :
    l.places = (rowIndices i 0 n).map v.layout.placeAt := by
  rw [Layout.places_eq, hshape, Shape.indices_singleton, rowIndices, List.map_map, List.map_map]
  refine List.map_congr_left fun k _ => ?_
  show l.placeAt [(k : Int)] = v.layout.placeAt [i, 0 + (k : Int)]
  rw [Int.zero_add, hplace]

theorem row_shows {i : Int} (hv : v.Within s) (hshape : v.shape = [m, n]) (hi : 0 ≤ i ∧ i < m)
    (h : v.row i = .ok out) :
    out.Shows s v.type [n] ((rowIndices i 0 n).map (v.elementAt s)) := by
  obtain ⟨l, rfl, hl, hplace⟩ := row_eq_ok hshape hi h
  have hplaces := row_places hl hplace
  refine ⟨⟨hv.buffer, fun p hp => hv.cells p ?_⟩, rfl, hl, ?_⟩
  · have hp : p ∈ l.places := hp
    rw [hplaces] at hp
    obtain ⟨index, hindex, rfl⟩ := List.mem_map.mp hp
    refine Layout.placeAt_mem_places ?_
    show index ∈ v.shape.indices
    rw [hshape]
    exact rowIndices_mem hi (Int.le_refl 0) (by omega) hindex
  · show s.gather v.buffer l.places = _
    rw [hplaces, Store.gather, List.map_map]
    rfl

/-- The elements of a row have cells, and distinct ones. -/
theorem row_cells {i : Int} (hv : v.Within s) (hd : v.places.Nodup) (hshape : v.shape = [m, n])
    (hi : 0 ≤ i ∧ i < m) :
    ((rowIndices i 0 n).map v.layout.placeAt).Nodup ∧
      ∀ p ∈ (rowIndices i 0 n).map v.layout.placeAt, s.HasCell v.buffer p := by
  have hsub : ∀ index ∈ rowIndices i 0 n, index ∈ v.layout.shape.indices := by
    intro index hindex
    show index ∈ v.shape.indices
    rw [hshape]
    exact rowIndices_mem hi (Int.le_refl 0) (by omega) hindex
  refine ⟨List.Nodup.map_on (fun a ha b hb hab => ?_) (nodup_rowIndices i 0 n), fun p hp => ?_⟩
  · exact Layout.placeAt_injOn hd (hsub a ha) (hsub b hb) hab
  · obtain ⟨index, hindex, rfl⟩ := List.mem_map.mp hp
    exact hv.cells _ (Layout.placeAt_mem_places (hsub index hindex))

/-- Copying a run of a row writes it to a row of as many elements. -/
theorem copyRow_updates {i j : Int} {first last count : Nat} {u : Unit} (ht : target.Within s)
    (hd : target.places.Nodup) (hs : source.Within s) (htype : source.type = target.type)
    (htarget : target.shape = [m, count]) (hsource : source.shape = [m', n'])
    (hi : 0 ≤ i ∧ i < m) (hj : 0 ≤ j ∧ j < m') (hrun : first ≤ n' ∧ last ≤ n')
    (hcount : count = last - first)
    (h : copyRow target i source j first last s = .ok u s') :
    Updates s s' target.buffer ((rowIndices i 0 count).map target.layout.placeAt)
      ((rowIndices j first count).map (source.elementAt s)) := by
  simp only [copyRow, guard_eq_ok, bind_eq_ok, ofExcept_eq_ok, get_eq_ok] at h
  obtain ⟨_, row, _, ⟨hrow, rfl⟩, from', _, ⟨hfrom, rfl⟩, _, _, _, _, ⟨rfl, rfl⟩, h⟩ := h
  obtain ⟨l, rfl, hl, hplace⟩ := row_eq_ok htarget hi hrow
  have hplaces := row_places hl hplace
  have hsegment := segment_shows (row_shows hs hsource hj hfrom) hrun.1 hrun.2
  have hcodes : ((from'.segment first last).codes s).map (source.type.convert target.type) =
      (rowIndices j first count).map (source.elementAt s) := by
    rw [hsegment.codes_eq, rowIndices, rowIndices, htype]
    refine List.ext_getElem (by simp; omega) fun k hk hk' => ?_
    simp [ElementType.convert]
  have hsize : (target.withLayout l).size = count := by
    show Shape.size l.shape = count
    rw [hl]
    exact Nat.mul_one count
  rw [hcodes] at h
  generalize hcopied : (rowIndices j first count).map (source.elementAt s) = copied at *
  have hlen : copied.length = count := by
    rw [← hcopied, List.length_map, rowIndices, List.length_map, List.length_range]
  -- A run of one element would fill the row, which has one element as well.
  have hfill : s' = (target.withLayout l).fill copied s := by
    rcases copied with _ | ⟨code, _ | ⟨code', copied⟩⟩
    · simp only [guard_eq_ok, modify_eq_ok] at h
      exact h.2.symm
    · rw [modify_eq_ok, hsize, ← hlen] at h
      exact h.symm
    · simp only [guard_eq_ok, modify_eq_ok] at h
      exact h.2.symm
  obtain ⟨hnodup, hcells⟩ := row_cells ht hd htarget hi
  rw [hfill, ← hplaces]
  rw [← hplaces] at hnodup hcells
  exact Store.scatter_updates hnodup hcells
    (hlen.trans (hsize.symm.trans (Layout.length_places l).symm))

/-- Copying rows writes runs of them to whole rows of an array with none of the source's cells. -/
theorem copyRows_updates {i j : Int} {first last cols rows : Nat} {u : Unit} (ht : target.Within s)
    (hd : target.places.Nodup) (hs : source.Within s)
    (hapart : source.buffer = target.buffer → ∀ p ∈ source.places, p ∉ target.places)
    (htype : source.type = target.type) (htarget : target.shape = [m, cols])
    (hsource : source.shape = [m', n']) (hi : 0 ≤ i ∧ i + rows ≤ m) (hj : 0 ≤ j ∧ j + rows ≤ m')
    (hrun : first ≤ n' ∧ last ≤ n') (hcols : cols = last - first)
    (h : copyRows target source first last rows i j s = .ok u s') :
    Updates s s' target.buffer
      (((List.range rows).flatMap fun (a : Nat) => rowIndices (i + a) 0 cols).map
        target.layout.placeAt)
      (((List.range rows).flatMap fun (a : Nat) => rowIndices (j + a) first cols).map
        (source.elementAt s)) := by
  induction rows generalizing i j s with
  | zero =>
    obtain ⟨_, rfl⟩ := pure_eq_ok.mp h
    exact (Extends.refl s).updates_nil target.buffer
  | succ rows ih =>
    simp only [copyRows, bind_eq_ok] at h
    obtain ⟨_, s₁, hrow, hrest⟩ := h
    have hfirst := copyRow_updates ht hd hs htype htarget hsource (by omega) (by omega) hrun hcols
      hrow
    have hnext := ih (ht.updates hfirst) (hs.updates hfirst) (by omega) (by omega) hrest
    have hmem : ∀ {k : Int} {x : List Int}, 0 ≤ k ∧ k < m → x ∈ rowIndices k 0 cols →
        x ∈ target.layout.shape.indices := by
      intro k x hk hx
      show x ∈ target.shape.indices
      rw [htarget]
      exact rowIndices_mem hk (Int.le_refl 0) (by omega) hx
    -- The first row leaves the rows alone that are still to be read.
    have hsame : (((List.range rows).flatMap fun (a : Nat) =>
          rowIndices (j + 1 + a) first cols).map (source.elementAt s₁)) =
        ((List.range rows).flatMap fun (a : Nat) =>
          rowIndices (j + 1 + a) first cols).map (source.elementAt s) := by
      refine List.map_congr_left fun index hindex => ?_
      obtain ⟨a, ha, hindex⟩ := List.mem_flatMap.mp hindex
      have ha := List.mem_range.mp ha
      have hread : index ∈ source.layout.shape.indices := by
        show index ∈ source.shape.indices
        rw [hsource]
        exact rowIndices_mem (by omega) (by omega) (by omega) hindex
      refine hfirst.frame source.buffer hs.buffer _ fun he hm => ?_
      obtain ⟨x, hx, heq⟩ := List.mem_map.mp hm
      refine hapart he _ (Layout.placeAt_mem_places hread) ?_
      rw [← heq]
      exact Layout.placeAt_mem_places (hmem (by omega) hx)
    rw [hsame] at hnext
    rw [rowIndices_succ, rowIndices_succ, List.map_append, List.map_append]
    refine hfirst.append hnext ht.buffer fun p hp hp' => ?_
    obtain ⟨index, hindex, rfl⟩ := List.mem_map.mp hp
    obtain ⟨index', hindex', heq⟩ := List.mem_map.mp hp'
    obtain ⟨a, ha, hindex'⟩ := List.mem_flatMap.mp hindex'
    have ha := List.mem_range.mp ha
    have hsame' := Layout.placeAt_injOn hd (hmem (by omega) hindex') (hmem (by omega) hindex) heq
    obtain ⟨_, _, rfl⟩ := List.mem_map.mp hindex
    obtain ⟨_, _, rfl⟩ := List.mem_map.mp hindex'
    have hrows := (List.cons.inj hsame').1
    omega

/-- The indices of a plane that is walked in steps of one, row by row. -/
theorem selected_plane {r : Resolution} {rows cols : AxisSelection} (haxes : r.axes = [rows, cols])
    (hrows : rows.interval.step = 1) (hcols : cols.interval.step = 1) :
    r.selected = (List.range rows.size).flatMap fun (a : Nat) =>
      rowIndices (rows.interval.start + a) cols.interval.start cols.size := by
  have hshape : r.processingShape = [rows.size, cols.size] := by
    rw [Resolution.processingShape, haxes]
    rfl
  rw [Resolution.selected, hshape, indices_pair, List.map_flatMap]
  refine flatMap_range_congr fun a _ => ?_
  rw [rowIndices, List.map_map, rowIndices]
  refine List.map_congr_left fun k _ => ?_
  show r.indexAt [(a : Int), 0 + (k : Int)] = _
  rw [Resolution.indexAt, Resolution.intervals, haxes, Int.zero_add]
  simp only [List.map_cons, List.map_nil, List.zipWith_cons_cons, List.zipWith_nil_left,
    Interval.index, hrows, hcols, Int.one_mul]

/-- The rows and the columns of a plane that is walked in steps of one. -/
theorem plane_bounds {r : Resolution} {rows cols : AxisSelection} (hf : r.Fits)
    (haxes : r.axes = [rows, cols]) (hsimple : r.isSimple = true) :
    (rows.interval.step = 1 ∧ cols.interval.step = 1) ∧
      ((rows.interval.stop - rows.interval.start).toNat = rows.size ∧
        0 ≤ rows.interval.start ∧ rows.interval.start + rows.size ≤ rows.extent) ∧
      ∃ first last : Nat, cols.interval.start = first ∧ cols.interval.stop = last ∧
        (first ≤ cols.extent ∧ last ≤ cols.extent) ∧ cols.size = last - first := by
  rw [Resolution.isSimple, haxes] at hsimple
  simp only [List.all_cons, List.all_nil, Bool.and_true, Bool.and_eq_true, beq_iff_eq] at hsimple
  obtain ⟨hrows, hcols⟩ := hsimple
  have hrow := (hf rows (haxes ▸ List.mem_cons_self)).interval.of_step_one hrows
  have hcol := (hf cols (haxes ▸ List.mem_cons_of_mem _ List.mem_cons_self)).interval.of_step_one
    hcols
  have hcount : rows.size = (rows.interval.stop - rows.interval.start).toNat :=
    Interval.size_of_step_one hrows
  have hwidth : cols.size = (cols.interval.stop - cols.interval.start).toNat :=
    Interval.size_of_step_one hcols
  refine ⟨⟨hrows, hcols⟩, ⟨hcount.symm, hrow.1.1, by omega⟩, cols.interval.start.toNat,
    cols.interval.stop.toNat, ?_⟩
  omega

theorem plane_shapes {r : Resolution} {rows cols : AxisSelection} (hr : r.inputShape = v.shape)
    (haxes : r.axes = [rows, cols]) :
    v.shape = [rows.extent, cols.extent] ∧ r.processingShape = [rows.size, cols.size] := by
  rw [← hr, Resolution.inputShape, Resolution.processingShape, haxes]
  exact ⟨rfl, rfl⟩

/-- Copying the rows of a plane fills a target of the processing shape that has none of its
cells. -/
theorem copyPlane_updates {r : Resolution} {rows cols : AxisSelection} {u : Unit}
    (hv : v.Within s) (hf : r.Fits) (hr : r.inputShape = v.shape) (haxes : r.axes = [rows, cols])
    (hsimple : r.isSimple = true) (ht : target.Within s) (hd : target.places.Nodup)
    (hapart : v.buffer = target.buffer → ∀ p ∈ v.places, p ∉ target.places)
    (htype : v.type = target.type) (htarget : target.shape = r.processingShape)
    (h : copyRows target v cols.interval.start cols.interval.stop
      (rows.interval.stop - rows.interval.start).toNat 0 rows.interval.start s = .ok u s') :
    Updates s s' target.buffer target.places (r.selected.map (v.elementAt s)) := by
  obtain ⟨hsource, hshape⟩ := plane_shapes hr haxes
  obtain ⟨hsteps, ⟨hcount, hrows⟩, first, last, hfirst, hlast, hrun, hwidth⟩ :=
    plane_bounds hf haxes hsimple
  have hplaces : target.places =
      ((List.range rows.size).flatMap fun (a : Nat) => rowIndices (0 + (a : Int)) 0 cols.size).map
        target.layout.placeAt := by
    rw [places, Layout.places_eq, show target.layout.shape = _ from htarget, hshape, indices_pair]
    simp only [Int.zero_add]
  rw [hcount, hfirst, hlast] at h
  have hupd := copyRows_updates ht hd hv hapart htype (htarget.trans hshape) hsource (by omega)
    hrows hrun hwidth h
  rw [selected_plane haxes hsteps.1 hsteps.2, hplaces, hfirst]
  exact hupd

theorem copyPlane_shows {r : Resolution} (hv : v.Within s) (hf : r.Fits)
    (hr : r.inputShape = v.shape) (hsimple : r.isSimple = true)
    (h : v.copyPlane r none s = .ok out s') :
    Extends s s' ∧ out.Shows s' v.type r.finalShape (r.selected.map (v.elementAt s)) := by
  unfold copyPlane at h
  match haxes : r.axes with
  | [] | [_] | _ :: _ :: _ :: _ =>
    rw [Resolution.intervals, haxes] at h
    cases h
  | [rows, cols] =>
    rw [Resolution.intervals, haxes] at h
    simp only [List.map_cons, List.map_nil, bind_eq_ok, pure_eq_ok] at h
    obtain ⟨zeros, s₁, hzeros, target, s₂, htarget, _, s₃, hrows, rfl, rfl⟩ := h
    obtain ⟨rfl, hext, hshow⟩ := zeros_spec hzeros
    obtain ⟨rfl, l, rfl, hshape, hplaces⟩ :=
      reshape_contiguous (Layout.isContiguous_rowMajor r.finalShape) htarget
    have hupd := copyPlane_updates (hv.extends hext) hf hr haxes hsimple
      (withLayout_shows hshow.within hshape hplaces).within
      (by
        show l.places.Nodup
        rw [hplaces]
        exact (Layout.rowMajor_fills r.finalShape).nodup)
      (fun he => absurd he (Nat.ne_of_lt hv.buffer)) rfl hshape hrows
    have hsource : v.elementAt s₂ = v.elementAt s :=
      funext fun index => hext.read v.buffer hv.buffer (v.layout.placeAt index)
    rw [hsource] at hupd
    refine ⟨(hext.updates hupd).extends (Nat.le_refl _), hshow.within.updates hupd, rfl,
      hshow.shape_eq, ?_⟩
    have hwritten := hupd.written
    rw [show View.places (withLayout _ l) = _ from hplaces] at hwritten
    exact hwritten

end View

end Hyperslab
