import Hyperslab.Proofs.Slice

/-!
# Runs that return

An extraction can only fail where a new array of its shape cannot be made, where the
rank is above the cap, or where the window does not open.  A write makes no array: the
final shape of a selection and its processing shape differ by axes of extent one only, so
the values take on the one from the other in place.  A write that succeeded has opened the
window of its selection, so what was written can be read back and written again.
-/

namespace Hyperslab

open Store (Extends Updates)

/-- An array of the shape can be made: its library has arrays of the shape, and there is memory for
it. -/
structure Store.Affords (s : Store) (kind : ArrayKind) (type : ElementType) (shape : Shape) :
    Prop where
  valid : View.checkShape kind type shape = .ok ()
  memory : View.bytes kind type shape ≤ s.limit

instance (s : Store) (kind : ArrayKind) (type : ElementType) (shape : Shape) :
    Decidable (s.Affords kind type shape) :=
  decidable_of_iff (View.checkShape kind type shape = .ok () ∧
    View.bytes kind type shape ≤ s.limit) ⟨fun h => ⟨h.1, h.2⟩, fun h => ⟨h.valid, h.memory⟩⟩

namespace View

variable {v : View} {s s' : Store} {is : List Interval} {extents shape : Shape}

/-- Axes of extent one take no memory. -/
theorem bytes_congr {t : Shape} (h : shape.filter (· ≠ 1) = t.filter (· ≠ 1)) (kind : ArrayKind)
    (type : ElementType) : bytes kind type shape = bytes kind type t := by
  cases kind with
  | host =>
    have hsolid : ∀ s : Shape,
        Shape.size (s.filter (· != 0)) = Shape.size ((s.filter (· ≠ 1)).filter (· != 0)) := by
      intro s
      rw [← Shape.size_filter, List.filter_comm]
    rw [bytes, bytes, hsolid, h, ← hsolid]
  | tensor => rw [bytes, bytes, ← Shape.size_filter, h, Shape.size_filter]

theorem checkShape_rank {kind : ArrayKind} {type : ElementType}
    (h : checkShape kind type shape = .ok ()) : kind = .host → shape.length ≤ maxAxes := by
  intro hhost
  subst hhost
  simp only [checkShape, checkHost] at h
  split_ifs at h with hrank
  exact Nat.not_lt.mp hrank

/-! ## Other shapes and copies -/

theorem make_returns {kind : ArrayKind} {type : ElementType} {l : Layout} (codes : List Int)
    (h : bytes kind type l.shape ≤ s.limit) : ∃ out s', make kind type l codes s = .ok out s' :=
  ⟨_, _, make_eq_ok.mpr ⟨h, rfl⟩⟩

/-- A shape that the layout can take is taken on in place. -/
theorem reshape_returns (s : Store) (hrank : v.kind = .host → shape.length ≤ maxAxes)
    (hsize : shape.size = v.size) (hfit : (v.layout.reshape? shape).isSome) :
    ∃ l, v.reshape shape s = .ok (v.withLayout l) s ∧ l.shape = shape ∧ l.places = v.places := by
  have hguard : ¬(v.kind = .host ∧ maxAxes < shape.length) := fun h =>
    Nat.not_lt.mpr (hrank h.1) h.2
  obtain ⟨l, hl⟩ := Option.isSome_iff_exists.mp hfit
  refine ⟨l, ?_, Layout.reshape?_spec hl hsize⟩
  unfold reshape
  rw [if_neg hguard, if_neg (not_not_intro hsize), hl]
  rfl

/-- Axes of extent one are put in and taken out in place. -/
theorem reshape_units (s : Store) (hrank : v.kind = .host → shape.length ≤ maxAxes)
    (hone : shape.filter (· ≠ 1) = v.shape.filter (· ≠ 1)) :
    ∃ l, v.reshape shape s = .ok (v.withLayout l) s ∧ l.shape = shape ∧ l.places = v.places := by
  have hsize : shape.size = v.size := by
    rw [← Shape.size_filter, hone, Shape.size_filter]
    rfl
  exact reshape_returns s hrank hsize (Layout.reshape?_of_filter hsize hone)

theorem reshape_rank {out : View} (h : v.reshape shape s = .ok out s') :
    v.kind = .host → shape.length ≤ maxAxes := by
  simp only [reshape, guard_eq_ok] at h
  exact fun hhost => Nat.not_lt.mp fun hlt => h.1 ⟨hhost, hlt⟩

theorem create_kind {kind : ArrayKind} {type : ElementType} {l : Layout} {codes : List Int}
    {out : View} (h : create kind type l codes s = .ok out s') : out.kind = kind := by
  rw [create_eq] at h
  cases h
  rfl

theorem copy_kind {out : View} (h : v.copy s = .ok out s') : out.kind = v.kind := by
  obtain ⟨w, hw, rfl⟩ := copy_eq_ok h
  have hkind := create_kind hw
  exact hkind

theorem reshape_kind {out : View} (h : v.reshape shape s = .ok out s') : out.kind = v.kind := by
  rcases reshape_eq_ok h with ⟨_, l, rfl, _, _⟩ | ⟨_, w, hw, rfl⟩
  · rfl
  · have hkind := create_kind hw
    exact hkind

theorem copy_returns (h : bytes v.kind v.type v.shape ≤ s.limit) :
    ∃ out s', v.copy s = .ok out s' := by
  have hshape : v.layout.dense.shape = v.shape := Layout.shape_dense v.layout
  rw [← hshape] at h
  obtain ⟨new, s', hnew⟩ := make_returns (v.codes s) h
  exact bind_returns (f := fun s => _) rfl (bind_returns hnew ⟨_, _, rfl⟩)

theorem ofType_returns {type : ElementType}
    (h : v.type ≠ type → bytes v.kind type v.shape ≤ s.limit) :
    ∃ out s', v.ofType type s = .ok out s' := by
  unfold ofType
  split_ifs with ht
  · exact ⟨v, s, rfl⟩
  · have hmemory := h ht
    rw [← Layout.shape_rowMajor v.shape] at hmemory
    obtain ⟨new, s', hnew⟩ := make_returns ((v.codes s).map (v.type.convert type)) hmemory
    exact bind_returns (f := fun s => _) rfl (bind_returns hnew ⟨_, _, rfl⟩)

theorem settle_returns (zeroCopy : Bool) (h : bytes v.kind v.type v.shape ≤ s.limit) :
    ∃ out s', v.settle zeroCopy s = .ok out s' := by
  cases zeroCopy with
  | true => exact ⟨v, s, rfl⟩
  | false => exact copy_returns h

theorem settle_kind {out : View} {zeroCopy : Bool} (h : v.settle zeroCopy s = .ok out s') :
    out.kind = v.kind := by
  cases zeroCopy with
  | true =>
    rw [settle, if_pos rfl, pure_eq_ok] at h
    rw [h.1]
  | false =>
    rw [settle, if_neg Bool.false_ne_true] at h
    exact copy_kind h

theorem zeros_returns {kind : ArrayKind} {type : ElementType} (s : Store)
    (h : s.Affords kind type shape) : ∃ out s', zeros kind type shape s = .ok out s' := by
  unfold zeros
  refine bind_returns (ofExcept_returns h.valid s) (make_returns _ ?_)
  rw [Layout.shape_rowMajor]
  exact h.memory

/-! ## Windows -/

/-- The strides of the window can be addressed, and a tensor has all of its cells. -/
def Opens (v : View) (s : Store) (is : List Interval) (extents : Shape) : Prop :=
  match v.kind with
  | .host => ∃ l, v.signedWindow is extents = .ok l
  | .tensor => ∃ w, v.forwardWindow s is extents = .ok w

theorem Opens.of_extent (h : v.Opens s is extents)
    (hb : s'.extent v.buffer = s.extent v.buffer) : v.Opens s' is extents := by
  unfold Opens at h ⊢
  cases hk : v.kind with
  | host =>
    rw [hk] at h
    exact h
  | tensor =>
    rw [hk] at h
    obtain ⟨w, hw⟩ := h
    refine ⟨w, ?_⟩
    rw [forwardWindow, hb]
    exact hw

/-- A window may be written: it opens, a host array is not read-only, and no axis of a tensor
repeats its cells. -/
structure Takes (v : View) (s : Store) (is : List Interval) (extents : Shape) : Prop where
  opens : v.Opens s is extents
  writeable : v.kind = .host → v.writeable = true
  distinct : v.kind = .tensor → (v.layout.window is extents).repeats = false

theorem Takes.of_extent (h : v.Takes s is extents)
    (hb : s'.extent v.buffer = s.extent v.buffer) : v.Takes s' is extents :=
  ⟨h.opens.of_extent hb, h.writeable, h.distinct⟩

/-- What stands in the way of a write is the window. -/
theorem writeWindow_returns_iff {w : View} :
    (∃ s', v.writeWindow is extents w s = .ok () s') ↔ v.Takes s is extents := by
  have htakes : v.Takes s is extents ↔ v.Opens s is extents ∧
      (v.kind = .host → v.writeable = true) ∧
      (v.kind = .tensor → (v.layout.window is extents).repeats = false) :=
    ⟨fun h => ⟨h.opens, h.writeable, h.distinct⟩, fun h => ⟨h.1, h.2.1, h.2.2⟩⟩
  rw [htakes]
  unfold Opens
  simp only [writeWindow, bind_eq_ok, get_eq_ok]
  cases hk : v.kind with
  | host =>
    simp only [bind_eq_ok, ofExcept_eq_ok, guard_eq_ok, set_eq_ok]
    constructor
    · rintro ⟨_, _, _, ⟨rfl, rfl⟩, l, _, ⟨hl, _⟩, hwriteable, _⟩
      exact ⟨⟨l, hl⟩, fun _ => by simpa using hwriteable, fun htensor => by cases htensor⟩
    · rintro ⟨⟨l, hl⟩, hwriteable, _⟩
      exact ⟨_, _, _, ⟨rfl, rfl⟩, l, _, ⟨hl, rfl⟩, by simp [hwriteable trivial], rfl⟩
  | tensor =>
    simp only [bind_eq_ok, ofExcept_eq_ok, guard_eq_ok]
    constructor
    · rintro ⟨_, _, _, ⟨rfl, rfl⟩, f, _, ⟨hf, _⟩, hdistinct, _⟩
      refine ⟨⟨f, hf⟩, fun hhost => (by cases hhost), fun _ => ?_⟩
      rw [forwardWindow_eq_ok hf, ForwardWindow.repeats_ofLayout, Bool.not_eq_true] at hdistinct
      exact hdistinct
    · rintro ⟨⟨f, hf⟩, _, hdistinct⟩
      have hdistinct : ¬f.layout.repeats = true := by
        rw [forwardWindow_eq_ok hf, ForwardWindow.repeats_ofLayout, hdistinct trivial]
        decide
      by_cases hflips : f.flips.contains true = true
      · exact ⟨_, _, _, ⟨rfl, rfl⟩, f, _, ⟨hf, rfl⟩, hdistinct, by rw [if_pos hflips, set_eq_ok]⟩
      · exact ⟨_, _, _, ⟨rfl, rfl⟩, f, _, ⟨hf, rfl⟩, hdistinct, by rw [if_neg hflips, set_eq_ok]⟩

theorem readWindow_returns (h : v.Opens s is extents)
    (hmemory : bytes v.kind v.type (v.layout.window is extents).shape ≤ s.limit) :
    ∃ out s', v.readWindow is extents s = .ok out s' := by
  unfold Opens at h
  unfold readWindow
  refine bind_returns (f := fun s => _) rfl ?_
  cases hk : v.kind with
  | host =>
    rw [hk] at h hmemory
    obtain ⟨l, hl⟩ := h
    refine bind_returns (ofExcept_returns hl s) (make_returns _ ?_)
    rw [Layout.shape_dense, signedWindow_eq_ok hl]
    exact hmemory
  | tensor =>
    rw [hk] at h hmemory
    obtain ⟨f, hf⟩ := h
    have hshape : f.layout.dense.shape = (v.layout.window is extents).shape := by
      rw [Layout.shape_dense, forwardWindow_eq_ok hf, ForwardWindow.shape_ofLayout]
    rw [← hshape] at hmemory
    obtain ⟨new, s', hnew⟩ := make_returns (f.turn (s.gather v.buffer f.layout.places)) hmemory
    exact bind_returns (ofExcept_returns hf s) (bind_returns hnew ⟨_, _, rfl⟩)

theorem readWindow_kind {out : View} (h : v.readWindow is extents s = .ok out s') :
    out.kind = v.kind := by
  simp only [readWindow, bind_eq_ok, get_eq_ok] at h
  obtain ⟨_, _, ⟨rfl, rfl⟩, h⟩ := h
  cases hk : v.kind with
  | host =>
    rw [hk] at h
    simp only [bind_eq_ok, ofExcept_eq_ok, make_eq_ok] at h
    obtain ⟨_, _, _, _, h⟩ := h
    exact create_kind h
  | tensor =>
    rw [hk] at h
    simp only [bind_eq_ok, ofExcept_eq_ok, pure_eq_ok, make_eq_ok] at h
    obtain ⟨_, _, _, _, _, ⟨_, h⟩, rfl, _⟩ := h
    have hkind := create_kind h
    exact hkind

/-! ## Bulk copies -/

theorem flat_returns (s : Store) (h : v.layout.isContiguous = true) :
    ∃ l, v.flat s = .ok (v.withLayout l) s ∧ l.shape = [v.size] ∧ l.places = v.places := by
  have hsize : Shape.size [v.size] = v.size := Nat.mul_one v.size
  have hsome := Layout.reshape?_of_contiguous h hsize
  have hrank : [v.size].length ≤ maxAxes := Nat.le_of_ble_eq_true rfl
  obtain ⟨l, hl, hkept⟩ := reshape_returns s (fun _ => hrank) hsize hsome
  refine ⟨l, ?_, hkept⟩
  rw [flat, guard_eq_ok]
  refine ⟨?_, hl⟩
  rw [Option.isNone_iff_eq_none, ← Option.not_isSome_iff_eq_none]
  exact fun hnone => hnone.2 hsome

theorem flat_kind {out : View} (h : v.flat s = .ok out s') : out.kind = v.kind := by
  simp only [flat, guard_eq_ok] at h
  exact reshape_kind h.2

theorem copyLead_returns {r : Resolution} {zeroCopy : Bool} (hv : v.Within s) (hf : r.Fits)
    (hr : r.inputShape = v.shape) (hl : r.isLead = true) (haxes : r.axes.length ≠ 0)
    (hcontiguous : v.layout.isContiguous = true)
    (hshape : s.Affords v.kind v.type r.finalShape) :
    ∃ out s', v.copyLead r zeroCopy s = .ok out s' := by
  unfold copyLead
  cases hlead : r.axes with
  | nil => exact absurd (congrArg List.length hlead) haxes
  | cons lead rest =>
    obtain ⟨flat, hflat, _⟩ := flat_returns s hcontiguous
    obtain ⟨_, hshow⟩ := leadRun_shows hv hf hr hlead hl hflat
    have hsize : Shape.size [lead.size * Shape.size (rest.map (·.extent))] = r.size := by
      have hlen := congrArg List.length hshow.codes_eq
      rw [length_codes, hshow.shape_eq, List.length_map, Resolution.length_selected] at hlen
      exact hlen
    generalize hrun : (v.withLayout flat).segment
      (lead.interval.start * (Shape.size (rest.map (·.extent)) : Int))
      (lead.interval.stop * (Shape.size (rest.map (·.extent)) : Int)) = run at hshow
    have hkind : run.kind = v.kind := by
      rw [← hrun]
      rfl
    -- A run has one axis, so it takes on any shape in place.
    obtain ⟨d, hd⟩ := List.length_eq_one_iff.mp
      ((List.length_map _).symm.trans (congrArg List.length hshow.shape_eq))
    have hfinal : r.finalShape.size = run.size := by
      rw [hshow.size_eq, hsize, Resolution.size_finalShape hf]
    obtain ⟨l, hfit, hl, _⟩ := reshape_returns s
      (fun h => checkShape_rank hshape.valid (hkind.symm.trans h)) hfinal
      (Layout.reshape?_of_axis hd hfinal)
    obtain ⟨out, s', hout⟩ := settle_returns (v := run.withLayout l) (s := s) zeroCopy (by
      show bytes run.kind run.type l.shape ≤ s.limit
      rw [hl, hkind, hshow.type_eq]
      exact hshape.memory)
    rw [← hrun] at hfit hout
    exact bind_returns hflat (bind_returns hfit ⟨out, s', hout⟩)

theorem row_returns {m n : Nat} {i : Int} (hshape : v.shape = [m, n]) (hi : 0 ≤ i ∧ i < m) :
    ∃ out, v.row i = .ok out := by
  have hdims : v.layout.dims.map (·.extent) = [m, n] := hshape
  unfold row
  match hd : v.layout.dims with
  | [] | [_] | _ :: _ :: _ :: _ => rw [hd] at hdims; simp at hdims
  | [rows, cols] =>
    rw [hd, List.map_cons, List.cons.injEq] at hdims
    simp only [hdims.1, if_neg (Int.not_lt.mpr hi.1), if_pos hi]
    exact ⟨_, rfl⟩

theorem copyRow_returns {target source : View} {m m' n' first last count : Nat} {i j : Int}
    (hs : source.Within s) (hkind : target.kind = .host) (hwriteable : target.writeable = true)
    (htype : source.type = target.type) (htarget : target.shape = [m, count])
    (hsource : source.shape = [m', n']) (hi : 0 ≤ i ∧ i < m) (hj : 0 ≤ j ∧ j < m')
    (hrun : first ≤ n' ∧ last ≤ n') (hcount : count = last - first) :
    ∃ u s', copyRow target i source j first last s = .ok u s' := by
  obtain ⟨row, hrow⟩ := row_returns htarget hi
  obtain ⟨from', hfrom⟩ := row_returns hsource hj
  have hsegment := segment_shows (row_shows hs hsource hj hfrom) hrun.1 hrun.2
  obtain ⟨l, rfl, hl, _⟩ := row_eq_ok htarget hi hrow
  unfold copyRow
  refine guard_returns (by rw [hkind]; decide) (bind_returns (ofExcept_returns hrow s)
    (bind_returns (ofExcept_returns hfrom s) (guard_returns (by rw [hwriteable]; decide)
      (guard_returns ?_ (bind_returns (f := fun s => _) rfl ?_)))))
  · rw [htype, ElementType.sameKind]
    simp
  · have hlen : (((from'.segment first last).codes s).map
        (source.type.convert target.type)).length = count := by
      rw [List.length_map, length_codes, hsegment.shape_eq, hcount]
      exact Nat.mul_one _
    have hsize : (target.withLayout l).size = count := by
      show Shape.size l.shape = count
      rw [hl]
      exact Nat.mul_one count
    dsimp only
    generalize ((from'.segment first last).codes s).map (source.type.convert target.type) = copied
      at hlen
    match copied with
    | [code] => exact ⟨_, _, rfl⟩
    | [] | _ :: _ :: _ => exact guard_returns (by rw [hlen, hsize]; simp) ⟨_, _, rfl⟩

theorem copyRows_returns {target source : View} {m m' n' first last cols rows : Nat} {i j : Int}
    (ht : target.Within s) (hd : target.places.Nodup) (hs : source.Within s)
    (hkind : target.kind = .host) (hwriteable : target.writeable = true)
    (htype : source.type = target.type) (htarget : target.shape = [m, cols])
    (hsource : source.shape = [m', n']) (hi : 0 ≤ i ∧ i + rows ≤ m) (hj : 0 ≤ j ∧ j + rows ≤ m')
    (hrun : first ≤ n' ∧ last ≤ n') (hcols : cols = last - first) :
    ∃ u s', copyRows target source first last rows i j s = .ok u s' := by
  induction rows generalizing i j s with
  | zero => exact ⟨_, _, rfl⟩
  | succ rows ih =>
    obtain ⟨_, s₁, hrow⟩ := copyRow_returns (i := i) (j := j) hs hkind hwriteable htype htarget
      hsource (by omega) (by omega) hrun hcols
    have hupd := copyRow_updates ht hd hs htype htarget hsource (by omega) (by omega) hrun hcols
      hrow
    exact bind_returns hrow (ih (ht.updates hupd) (hs.updates hupd) (by omega) (by omega))

theorem copyPlane_returns {r : Resolution} (hv : v.Within s) (hf : r.Fits)
    (hr : r.inputShape = v.shape) (hsimple : r.isSimple = true) (haxes : r.axes.length = 2)
    (hkind : v.kind = .host) (hshape : s.Affords v.kind v.type r.finalShape) :
    ∃ out s', v.copyPlane r none s = .ok out s' := by
  obtain ⟨rows, cols, haxes⟩ := List.length_eq_two.mp haxes
  obtain ⟨zeros, s₁, hzeros⟩ := zeros_returns s hshape
  obtain ⟨rfl, hext, hshow⟩ := zeros_spec hzeros
  obtain ⟨hsource, hprocessing⟩ := plane_shapes hr haxes
  obtain ⟨_, ⟨hcount, hrows⟩, first, last, hfirst, hlast, hrun, hwidth⟩ :=
    plane_bounds hf haxes hsimple
  obtain ⟨l, hreshaped, hl, hplaces⟩ := reshape_returns s₁
    (fun _ => by rw [hprocessing]; exact (by decide : 2 ≤ maxAxes))
    ((Resolution.size_finalShape hf).symm.trans hshow.size_eq.symm)
    (Layout.reshape?_of_contiguous (Layout.isContiguous_rowMajor r.finalShape)
      ((Resolution.size_finalShape hf).symm.trans hshow.size_eq.symm))
  have hnodup : l.places.Nodup := by
    rw [hplaces]
    exact (Layout.rowMajor_fills r.finalShape).nodup
  obtain ⟨_, s₃, hcopy⟩ := copyRows_returns (i := 0)
    (withLayout_shows hshow.within hl hplaces).within hnodup (hv.extends hext) hkind rfl rfl
    (hl.trans hprocessing) hsource (by omega) hrows hrun hwidth
  unfold copyPlane
  rw [Resolution.intervals, haxes, List.map_cons, List.map_cons, List.map_nil]
  dsimp only
  rw [hcount, hfirst, hlast]
  exact bind_returns hzeros (bind_returns hreshaped (bind_returns hcopy ⟨_, _, rfl⟩))

/-! ## Kinds -/

theorem copyLead_kind {r : Resolution} {zeroCopy : Bool} {out : View}
    (h : v.copyLead r zeroCopy s = .ok out s') : out.kind = v.kind := by
  unfold copyLead at h
  cases hr : r.axes with
  | nil =>
    rw [hr] at h
    exact absurd h (by simp)
  | cons lead rest =>
    rw [hr] at h
    simp only [bind_eq_ok] at h
    obtain ⟨flat, _, hflat, run, _, hrun, h⟩ := h
    have hflat : flat.kind = v.kind := flat_kind hflat
    exact (settle_kind h).trans ((reshape_kind hrun).trans hflat)

theorem copyPlane_kind {r : Resolution} {out : View} (h : v.copyPlane r none s = .ok out s') :
    out.kind = v.kind := by
  unfold copyPlane at h
  generalize r.intervals = is at h
  match is with
  | [] | [_] | _ :: _ :: _ :: _ => cases h
  | [rows, cols] =>
    simp only [bind_eq_ok, pure_eq_ok] at h
    obtain ⟨zeros, _, hzeros, _, _, _, _, _, _, rfl, _⟩ := h
    rw [(zeros_spec hzeros).1]

theorem ofKind_self (v : View) : v.ofKind v.kind = .ok v := by
  unfold ofKind
  cases v.kind <;> rfl

end View

/-! ## Calls -/

theorem Walker.ofRank_eq_ok {rank cap : Int} {w : Walker} (h : ofRank rank cap = .ok w) :
    w = ⟨rank⟩ := by
  unfold ofRank at h
  split_ifs at h
  cases h
  rfl

theorem Resolution.walk_returns {r : Resolution} {v : View} {cap : Nat} {s : Store} {w : Walker}
    (hr : r.inputShape = v.shape) (hw : Walker.ofRank r.axes.length cap = .ok w)
    (hopens : v.Opens s r.intervals r.processingShape)
    (hmemory : View.bytes v.kind v.type r.processingShape ≤ s.limit) :
    ∃ out s', r.walk v .extract none cap s = .ok out s' := by
  unfold walk
  refine bind_returns (ofExcept_returns hw s) ?_
  obtain rfl := Walker.ofRank_eq_ok hw
  unfold Walker.walk
  refine guard_returns ?_ (View.readWindow_returns hopens (by rw [shape_window hr]; exact hmemory))
  rw [length_intervals, length_processingShape]
  simp

theorem Resolution.walk_write_returns {r : Resolution} {v u values : View} {cap : Nat}
    {s s₁ : Store} {w : Walker} {mode : WalkMode} (hmode : mode ≠ .extract)
    (hw : Walker.ofRank r.axes.length cap = .ok w)
    (hvalues : u.reshape r.processingShape s = .ok values s₁)
    (hwrite : ∃ s', v.writeWindow r.intervals r.processingShape values s₁ = .ok () s') :
    ∃ out s', r.walk v mode (some u) cap s = .ok out s' := by
  obtain rfl := Walker.ofRank_eq_ok hw
  have harity : ¬((r.axes.length : Int) ≠ r.intervals.length ∨
      (r.axes.length : Int) ≠ r.processingShape.length) := by
    rw [length_intervals, length_processingShape]
    simp
  obtain ⟨s', hwrite⟩ := hwrite
  unfold walk
  refine bind_returns (ofExcept_returns hw s) ?_
  unfold Walker.walk
  refine guard_returns harity ?_
  cases mode with
  | extract => exact absurd rfl hmode
  | gradient | assign =>
    exact bind_returns hvalues (bind_returns hwrite ⟨v, s', rfl⟩)

theorem Resolution.walk_kind {r : Resolution} {v out : View} {cap : Nat} {s s' : Store}
    (h : r.walk v .extract none cap s = .ok out s') : out.kind = v.kind := by
  simp only [walk, Walker.walk, bind_eq_ok, ofExcept_eq_ok, guard_eq_ok] at h
  obtain ⟨_, _, ⟨_, rfl⟩, _, h⟩ := h
  exact View.readWindow_kind h

namespace Config

variable {c : Config} {b : Backend} {v : View} {r : Resolution} {route : Route} {s : Store}

theorem extract_returns (hv : v.Within s) (hf : r.Fits) (hr : r.inputShape = v.shape)
    (hkind : v.kind = b.kind) (hroute : c.Serves b v r route)
    (hshape : s.Affords v.kind v.type r.finalShape)
    (hopens : r.axes.length ≠ 0 → r.size ≠ 0 → v.Opens s r.intervals r.processingShape) :
    ∃ out s', c.extract v r route s = .ok out s' := by
  have hrank := View.checkShape_rank hshape.valid
  have hone := Resolution.filter_finalShape hf
  cases route with
  | identity =>
    rw [Resolution.processingShape_of_identity hroute, hr] at hone
    obtain ⟨l, hwhole, hl, _⟩ := View.reshape_units s hrank hone
    refine bind_returns hwhole (View.settle_returns c.zeroCopy ?_)
    show View.bytes v.kind v.type l.shape ≤ s.limit
    rw [hl]
    exact hshape.memory
  | lead =>
    obtain ⟨hlead, hcontiguous, haxes⟩ := hroute
    exact View.copyLead_returns hv hf hr hlead haxes hcontiguous hshape
  | rows =>
    obtain ⟨hsimple, haxes, hhost⟩ := hroute
    simp only [extract]
    split_ifs
    · exact View.zeros_returns s hshape
    · exact View.copyPlane_returns hv hf hr hsimple haxes (hkind.trans hhost) hshape
  | walk =>
    obtain ⟨haxes, hcap⟩ := hroute
    simp only [extract]
    split_ifs with hsize
    · exact View.zeros_returns s hshape
    · obtain ⟨w, hw⟩ := hcap hsize
      have hmemory : View.bytes v.kind v.type r.processingShape ≤ s.limit := by
        rw [← View.bytes_congr hone]
        exact hshape.memory
      obtain ⟨out, s₁, hout⟩ := Resolution.walk_returns hr hw (hopens haxes hsize) hmemory
      obtain ⟨_, hshow⟩ := Resolution.walk_shows hr hout
      have houtRank : out.kind = .host → r.finalShape.length ≤ maxAxes :=
        fun hhost => hrank ((Resolution.walk_kind hout).symm.trans hhost)
      obtain ⟨l, hfinal, _⟩ := View.reshape_units s₁ houtRank (by rw [hshow.shape_eq, hone])
      exact bind_returns hout ⟨_, _, hfinal⟩

theorem extract_kind {out : View} {s' : Store} (h : c.extract v r route s = .ok out s') :
    out.kind = v.kind := by
  have hzeros : View.zeros v.kind v.type r.finalShape s = .ok out s' → out.kind = v.kind := by
    intro h
    rw [(View.zeros_spec h).1]
  cases route with
  | identity =>
    simp only [extract, View.copyIdentity, bind_eq_ok] at h
    obtain ⟨whole, _, hwhole, h⟩ := h
    exact (View.settle_kind h).trans (View.reshape_kind hwhole)
  | lead => exact View.copyLead_kind h
  | rows =>
    simp only [extract] at h
    split_ifs at h
    · exact hzeros h
    · exact View.copyPlane_kind h
  | walk =>
    simp only [extract] at h
    split_ifs at h
    · exact hzeros h
    · simp only [bind_eq_ok] at h
      obtain ⟨walked, _, hwalk, h⟩ := h
      exact (View.reshape_kind h).trans (Resolution.walk_kind hwalk)

theorem route_returns
    (hcap : r.axes.length ≠ 0 → r.size ≠ 0 → ∃ w, Walker.ofRank r.axes.length c.maxRank = .ok w) :
    ∃ route, c.route b v r = .ok route := by
  unfold Config.route
  by_cases hrank : r.axes.length = 0
  · simp only [if_pos hrank]
    exact ⟨_, rfl⟩
  · simp only [if_neg hrank]
    generalize (if c.fastPaths = true then Route.choose r v.layout.isContiguous b.rowCopies
      else Route.walk) = chosen
    by_cases h : chosen = .walk ∧ r.size ≠ 0
    · obtain ⟨w, hw⟩ := hcap hrank h.2
      rw [if_pos h, hw]
      exact ⟨_, rfl⟩
    · rw [if_neg h]
      exact ⟨_, rfl⟩

theorem slice_returns {spec : Value} {w : Workspace} (hv : v.Within w.store)
    (hb : Backend.choose c.backend c.device [.array v] = .ok b) (hkind : v.kind = b.kind)
    (hr : Resolution.ofValue v.shape spec = .ok r)
    (hshape : w.store.Affords v.kind v.type r.finalShape)
    (hcap : r.axes.length ≠ 0 → r.size ≠ 0 → ∃ w, Walker.ofRank r.axes.length c.maxRank = .ok w)
    (hopens : r.axes.length ≠ 0 → r.size ≠ 0 →
      v.Opens w.store r.intervals r.processingShape) :
    ∃ out w', c.slice (.array v) spec w = .ok out w' := by
  obtain ⟨hfits, hinput⟩ := Resolution.ofValue_fits hr
  obtain ⟨route, hroute⟩ := route_returns (b := b) (v := v) hcap
  obtain ⟨out, s', hout⟩ :=
    extract_returns hv hfits hinput hkind (route_serves hroute) hshape hopens
  have hsource : v.ofKind b.kind = .ok v := hkind ▸ v.ofKind_self
  unfold slice
  refine bind_returns (ofExcept_returns hb w)
    (bind_returns (onStore_returns (ofExcept_returns hsource w.store))
      (bind_returns (ofExcept_returns hr _) (bind_returns (ofExcept_returns hroute _)
        (bind_returns (onStore_returns hout) ⟨out, _, rfl⟩))))

/-- A write to a selection that is not empty needs a walker for the rank, an array in the processing
shape, and a window that may be written. -/
theorem write_of_takes {u : View} {mode : WalkMode} (hmode : mode ≠ .extract)
    (hf : r.Fits) (hr : r.inputShape = v.shape) (hshape : u.shape = r.finalShape)
    (hwalk : r.axes.length ≠ 0 → r.size ≠ 0 →
      (∃ w, Walker.ofRank r.axes.length c.maxRank = .ok w) ∧
        (u.kind = .host → r.processingShape.length ≤ maxAxes) ∧
        v.Takes s r.intervals r.processingShape) :
    ∃ x s', c.write v r mode u s = .ok x s' := by
  have hone : r.processingShape.filter (· ≠ 1) = u.shape.filter (· ≠ 1) := by
    rw [hshape, Resolution.filter_finalShape hf]
  unfold write
  split_ifs with haxes hsize
  · have haxes : r.axes = [] := List.isEmpty_iff.mp haxes
    have hscalar : r.processingShape = [] := by rw [Resolution.processingShape, haxes]; rfl
    have hv : v.shape = r.processingShape := by
      rw [hscalar, ← hr, Resolution.inputShape, haxes]
      rfl
    obtain ⟨l, hvalues, _⟩ := View.reshape_units (v := u) s
      (fun _ => by rw [hscalar]; exact Nat.zero_le maxAxes) hone
    unfold View.writeAll
    rw [hv]
    exact bind_returns hvalues ⟨_, _, rfl⟩
  · have haxes : r.axes.length ≠ 0 := fun hlen =>
      haxes (List.isEmpty_iff.mpr (List.length_eq_zero_iff.mp hlen))
    obtain ⟨⟨w, hw⟩, hrank, htakes⟩ := hwalk haxes hsize
    obtain ⟨l, hvalues, _⟩ := View.reshape_units s hrank hone
    obtain ⟨_, _, hwalk⟩ := Resolution.walk_write_returns hmode hw hvalues
      (View.writeWindow_returns_iff.mpr htakes)
    exact bind_returns hwalk ⟨_, _, rfl⟩
  · exact ⟨_, _, rfl⟩

/-- A slice is an array of the kind that its back end has. -/
theorem slice_kind {spec : Value} {w w' : Workspace} {out : View}
    (hb : Backend.choose c.backend c.device [.array v] = .ok b)
    (h : c.slice (.array v) spec w = .ok out w') : out.kind = b.kind := by
  simp only [slice, Operand.toView, bind_eq_ok, ofExcept_eq_ok, onStore_eq_ok, pure_eq_ok] at h
  obtain ⟨b', _, ⟨hb', rfl⟩, source, _, ⟨_, ⟨hsource, rfl⟩, rfl⟩, _, _, _, _, _, _, made, _,
    ⟨_, hmade, _⟩, _, _, _, rfl, _⟩ := h
  obtain rfl : b = b' := Except.ok.inj (hb.symm.trans hb')
  obtain ⟨_, _, rfl, _⟩ := View.ofKind_eq_ok hsource
  exact extract_kind hmade

end Config

end Hyperslab
