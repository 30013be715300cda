import Hyperslab.Proofs.Kinds
import Mathlib.Algebra.BigOperators.Ring.List

/-!
# What stops a call

Once a selection has been resolved, a call can only fail for its rank, or where a
library cannot follow.  An axis of which two elements are visited is shorter in
memory than the buffer, so of the strides of a window only those that are never
taken, on axes of one element, can be too long.
-/

namespace Hyperslab

/-- A walk in a step that is no shorter than the axis ends after one element. -/
theorem AxisSelection.Fits.size_le_one {a : AxisSelection} (h : a.Fits)
    (hstep : a.extent ≤ a.interval.step.natAbs) : a.size ≤ 1 := by
  refine Nat.not_lt.mp fun hsize => ?_
  have hsize : (1 : Int) < a.interval.size := Int.ofNat_lt.mpr hsize
  have hfirst := h.interval.index_mem (Int.le_refl 0) (by omega)
  have hnext := h.interval.index_mem Int.one_nonneg hsize
  rw [Interval.index, Int.mul_zero] at hfirst
  rw [Interval.index, Int.mul_one] at hnext
  omega

/-! ## Strides that are taken -/

namespace Layout

/-- A stride leads from the place of one element to that of another one. -/
theorem natAbs_stride_lt {l : Layout} {d : Dim} {n : Nat} (hsize : l.size ≠ 0) (hd : d ∈ l.dims)
    (htwo : 2 ≤ d.extent) (hcells : ∀ p ∈ l.places, 0 ≤ p ∧ p < n) : d.stride.natAbs < n := by
  obtain ⟨index, hindex, _, htravel⟩ := exists_travel_eq_stride hsize hd htwo
  have hfirst := hcells _ (offset_mem_places hsize)
  have hnext := hcells _ (placeAt_mem_places hindex)
  rw [placeAt, htravel] at hnext
  omega

end Layout

/-- The stride of an axis is a number of 64 bits, as `Layout.Addressable` asks of every axis. -/
def Dim.Addressable (d : Dim) (kind : ArrayKind) (type : ElementType) : Prop :=
  match kind with
  | .host => ElementType.int64.inRange (d.stride * type.itemSize) = true
  | .tensor => ElementType.int64.inRange d.stride.natAbs = true

instance (d : Dim) (kind : ArrayKind) (type : ElementType) : Decidable (d.Addressable kind type) :=
  match kind with
  | .host => inferInstanceAs (Decidable (ElementType.int64.inRange _ = true))
  | .tensor => inferInstanceAs (Decidable (ElementType.int64.inRange _ = true))

theorem Layout.addressable_iff {l : Layout} {kind : ArrayKind} {type : ElementType} :
    l.Addressable kind type ↔ ∀ d ∈ l.dims, d.Addressable kind type := by
  cases kind with
  | host => exact List.all_eq_true
  | tensor => exact Iff.rfl

theorem Dim.addressable_of_natAbs_lt {d : Dim} {kind : ArrayKind} {type : ElementType} {n : Nat}
    (hstride : d.stride.natAbs < n) (hbytes : type.itemSize * n ≤ Number.twoTo 63) :
    d.Addressable kind type := by
  have hitem := View.itemSize_pos type
  have hlt : type.itemSize * d.stride.natAbs < Number.twoTo 63 :=
    Nat.lt_of_lt_of_le (Nat.mul_lt_mul_of_pos_left hstride hitem) hbytes
  cases kind with
  | host =>
    have habs : (d.stride * type.itemSize).natAbs = type.itemSize * d.stride.natAbs := by
      rw [Int.natAbs_mul, Int.natAbs_natCast, Nat.mul_comm]
    show ElementType.int64.inRange _ = true
    rw [View.inRange_iff]
    omega
  | tensor =>
    have hle := Nat.le_mul_of_pos_left d.stride.natAbs hitem
    exact View.inRange_natCast.mpr (Nat.lt_of_le_of_lt hle hlt)

namespace View

/-- An array as its library holds it: every element has a cell, the shape is one that its library
has, a tensor has numbers, and the bytes of its buffer are counted by numbers of 64 bits. -/
structure Held (v : View) (s : Store) : Prop where
  within : v.Within s
  valid : checkShape v.kind v.type v.shape = .ok ()
  numbers : v.kind = .tensor → v.type ≠ .other
  bytes : v.type.itemSize * s.extent v.buffer ≤ Number.twoTo 63

instance (v : View) (s : Store) : Decidable (v.Held s) :=
  decidable_of_iff (v.Within s ∧ checkShape v.kind v.type v.shape = .ok () ∧
    (v.kind = .tensor → v.type ≠ .other) ∧ v.type.itemSize * s.extent v.buffer ≤ Number.twoTo 63)
    ⟨fun ⟨hwithin, hvalid, hnumbers, hbytes⟩ => ⟨hwithin, hvalid, hnumbers, hbytes⟩,
      fun h => ⟨h.within, h.valid, h.numbers, h.bytes⟩⟩

/-- A call may write to the array. -/
def Writable (v : View) : Prop := (v.kind = .host → v.writeable = true) ∧ v.tracking ≠ .leaf

instance (v : View) : Decidable v.Writable := inferInstanceAs (Decidable (_ ∧ _))

/-- No axis of what is selected of a tensor repeats its cells. -/
def Unrepeated (v : View) (r : Resolution) : Prop :=
  v.kind = .tensor → (v.layout.window r.intervals r.processingShape).repeats = false

instance (v : View) (r : Resolution) : Decidable (v.Unrepeated r) :=
  inferInstanceAs (Decidable (_ → _))

/-- Wherever a single index is selected on an axis, so that its stride is never taken, the stride of
the window is a number of 64 bits all the same. -/
def SinglesFit (v : View) (r : Resolution) : Prop :=
  r.size ≠ 0 → ∀ d ∈ (v.layout.window r.intervals r.processingShape).dims, d.extent = 1 →
    d.Addressable v.kind v.type

instance (v : View) (r : Resolution) : Decidable (v.SinglesFit r) :=
  inferInstanceAs (Decidable (_ → ∀ d ∈ (v.layout.window r.intervals r.processingShape).dims, _))

/-- The window of a selection opens if the strides that are never taken allow it. -/
theorem Held.opens {v : View} {s : Store} {r : Resolution} (hv : v.Held s) (hf : r.Fits)
    (hr : r.inputShape = v.shape) (hsize : r.size ≠ 0) (hsingle : v.SinglesFit r) :
    v.Opens s r.intervals r.processingShape := by
  refine opens_of_addressable hv.within hf hr hsize (Layout.addressable_iff.mpr fun d hd => ?_)
  have hshape := Resolution.shape_window hr
  have hwindow : (v.layout.window r.intervals r.processingShape).size ≠ 0 := by
    rw [Layout.size, hshape]
    exact hsize
  have hpos : d.extent ≠ 0 := fun h0 => hwindow (List.prod_eq_zero (h0 ▸ List.mem_map_of_mem hd))
  by_cases hone : d.extent = 1
  · exact hsingle hsize d hd hone
  · refine Dim.addressable_of_natAbs_lt (Layout.natAbs_stride_lt hwindow hd (by omega) ?_) hv.bytes
    intro p hp
    rw [Resolution.places_window hr] at hp
    exact hv.within.cells p (Resolution.selected_subset_places hf hr hp)

end View

/-! ## Stages of a call -/

theorem ofExcept_ok_bind {α β : Type} (a : α) (f : α → Call β) : ofExcept (.ok a) >>= f = f a := rfl

theorem onStore_ok_bind {α β : Type} (a : α) (f : α → Call β) :
    Workspace.onStore (ofExcept (.ok a)) >>= f = f a := rfl

theorem Walker.ofRank_of_lt {rank cap : Nat} (h : cap < rank) :
    Walker.ofRank rank cap = .error (.unsupportedRank rank cap) :=
  if_pos (by omega)

namespace Config

variable {c : Config} {b : Backend} {x u : View} {r : Resolution} {spec : Value} {w : Workspace}

/-- The route of an extraction, before its rank is looked at. -/
def chosen (c : Config) (v : View) (r : Resolution) : Route :=
  if r.axes.length = 0 then .identity
  else if c.fastPaths then Route.choose r v.layout.isContiguous (v.kind == .host)
  else .walk

/-- A route is refused if it is the strided walk of a rank above the cap. -/
theorem route_eq (hkind : x.kind = b.kind) : c.route b x r =
    if c.chosen x r = .walk ∧ r.size ≠ 0 ∧ c.maxRank < r.axes.length then
      .error (.unsupportedRank r.axes.length c.maxRank)
    else .ok (c.chosen x r) := by
  unfold route chosen Backend.rowCopies
  rw [← hkind]
  by_cases hrank : r.axes.length = 0
  · rw [if_pos hrank, if_pos hrank, if_neg fun h => by simpa using h.1]
    rfl
  · rw [if_neg hrank, if_neg hrank]
    generalize (if c.fastPaths = true then Route.choose r x.layout.isContiguous (x.kind == .host)
      else Route.walk) = chosen
    by_cases hwalk : chosen = .walk ∧ r.size ≠ 0
    · rw [if_pos hwalk]
      by_cases hcap : c.maxRank < r.axes.length
      · rw [if_pos ⟨hwalk.1, hwalk.2, hcap⟩, Walker.ofRank_of_lt hcap]
        rfl
      · rw [if_neg fun h => hcap h.2.2, Walker.ofRank_of_le hrank (Nat.not_lt.mp hcap)]
        rfl
    · rw [if_neg hwalk, if_neg fun h => hwalk ⟨h.1, h.2.1⟩]
      rfl

/-- A slice of an array of the kind of its back end, once the selection is resolved. -/
theorem slice_array (hb : Backend.choose c.backend c.device [.array x] = .ok b)
    (hkind : x.kind = b.kind) (hr : Resolution.ofValue x.shape spec = .ok r) :
    c.slice (.array x) spec w = (do
      let route ← ofExcept (c.route b x r)
      let out ← Workspace.onStore (c.extract x r route)
      c.record .slice r (some ⟨route, b, x.type.itemSize⟩)
      return out : Call View) w := by
  have hsource : x.ofKind b.kind = .ok x := hkind ▸ x.ofKind_self
  simp only [slice, hb, ofExcept_ok_bind, Operand.toView, hsource, onStore_ok_bind, hr]

/-- An assignment of an array of the right type and shape, once the selection is resolved. -/
theorem assign_array {seen : View} (hb : Backend.choose c.backend c.device [.array x] = .ok b)
    (hkind : x.kind = b.kind) (hr : Resolution.ofValue x.shape spec = .ok r) (hx : x.Writable)
    (hseen : u.ofKind x.kind = .ok seen) (hutype : u.type = x.type)
    (hushape : u.shape = r.finalShape) :
    c.assign (.array x) spec (.array u) w = (do
      Workspace.onStore (c.write x r .assign seen)
      c.record .assign r (some ⟨writeRoute r, b, x.type.itemSize⟩) : Call Unit) w := by
  have htarget : b.target (.array x) = .ok x := by
    have hflag : ¬(x.kind = .host ∧ ¬x.writeable = true) := fun h => h.2 (hx.1 h.1)
    rw [Backend.target, if_neg (not_not_intro hkind), if_neg hflag, if_neg hx.2]
  obtain ⟨_, htype, hshape⟩ := View.ofKind_same hseen
  have hvalues : (Operand.array u).toViewOf b.kind x.type w.store = .ok seen w.store := by
    refine bind_eq_ok.mpr ⟨_, _, ofExcept_returns (hkind ▸ hseen) w.store, ?_⟩
    rw [View.ofType, if_pos (htype.trans hutype)]
    rfl
  simp only [assign, hb, ofExcept_ok_bind, htarget, hr]
  show EStateM.bind (Workspace.onStore _) _ w = _
  rw [EStateM.bind, onStore_returns hvalues]
  dsimp only
  rw [if_neg (not_not_intro (hshape.trans hushape))]

/-! ## Well-formed calls -/

theorem slice_stops (hx : x.Held w.store) (hc : c.Runs x.kind)
    (hr : Resolution.ofValue x.shape spec = .ok r) :
    if c.chosen x r = .walk ∧ r.size ≠ 0 ∧ c.maxRank < r.axes.length then
      c.slice (.array x) spec w = .error (.unsupportedRank r.axes.length c.maxRank) w
    else x.SinglesFit r → View.bytes x.kind x.type r.finalShape ≤ w.store.limit →
      if x.kind = .host ∧ maxAxes < r.finalShape.length then
        ∃ w', c.slice (.array x) spec w = .error .tooManyAxes w'
      else ∃ out w', c.slice (.array x) spec w = .ok out w' := by
  obtain ⟨b, hb, hkind⟩ := hc.choose rfl
  obtain ⟨hfits, hinput⟩ := Resolution.ofValue_fits hr
  rw [slice_array hb hkind hr]
  have hroute := route_eq (c := c) (r := r) hkind
  have hopens (hsingle : x.SinglesFit r) : r.axes.length ≠ 0 → r.size ≠ 0 →
      x.Opens w.store r.intervals r.processingShape := fun _ hsize =>
    hx.opens hfits hinput hsize hsingle
  split_ifs at hroute ⊢ with hcapped hrank
  · rw [hroute]
    rfl
  · intro hsingle hmemory
    obtain ⟨s, hstop⟩ := extract_stops hfits hinput hrank.1 (route_serves hroute) hmemory
      (hopens hsingle) hrank.2
    exact bind_stops (ofExcept_returns hroute w) (stops_bind (onStore_stops ⟨s, hstop⟩) _)
  · intro hsingle hmemory
    have hshape : View.checkShape x.kind x.type r.finalShape = .ok () :=
      (View.checkShape_shrinks (r.finalShape_shrinks hfits) (hinput ▸ hx.valid)).resolve_right hrank
    obtain ⟨out, s, hout⟩ := extract_returns hx.within hfits hinput hkind (route_serves hroute)
      ⟨hshape, hmemory⟩ (hopens hsingle)
    exact bind_returns (ofExcept_returns hroute w)
      (bind_returns (onStore_returns hout) ⟨out, _, rfl⟩)

theorem write_capped {s : Store} (hcapped : r.size ≠ 0 ∧ c.maxRank < r.axes.length) :
    c.write x r .assign u s = .error (.unsupportedRank r.axes.length c.maxRank) s := by
  obtain ⟨hsize, hcap⟩ := hcapped
  have haxes : ¬r.axes.isEmpty = true := fun he => by
    rw [List.isEmpty_iff.mp he] at hcap
    exact absurd hcap (Nat.not_lt_zero _)
  rw [write, if_neg haxes, if_pos hsize, Resolution.walk, Walker.ofRank_of_lt hcap]
  rfl

theorem assign_stops (hx : x.Held w.store) (hc : c.Runs x.kind)
    (hr : Resolution.ofValue x.shape spec = .ok r) (hwritable : x.Writable)
    (hu : u.ReadableAs x.kind) (hutype : u.type = x.type) (hushape : u.shape = r.finalShape) :
    if r.size ≠ 0 ∧ 1 ≤ r.axes.length ∧ c.maxRank < r.axes.length then
      c.assign (.array x) spec (.array u) w =
        .error (.unsupportedRank r.axes.length c.maxRank) w
    else x.SinglesFit r → x.Unrepeated r →
      ∃ w', c.assign (.array x) spec (.array u) w = .ok () w' := by
  obtain ⟨b, hb, hkind⟩ := hc.choose rfl
  obtain ⟨hfits, hinput⟩ := Resolution.ofValue_fits hr
  obtain ⟨seen, hseen⟩ := View.ofKind_returns hu
  rw [assign_array hb hkind hr hwritable hseen hutype hushape]
  split_ifs with hcapped
  · show EStateM.bind (Workspace.onStore _) _ w = _
    rw [EStateM.bind, Workspace.onStore, write_capped ⟨hcapped.1, hcapped.2.2⟩]
  intro hsingle hunrepeated
  have hmode : WalkMode.assign ≠ .extract := by decide
  obtain ⟨hskind, _, hsshape⟩ := View.ofKind_same hseen
  obtain ⟨_, s, hwrite⟩ := write_of_takes hmode hfits hinput (hsshape.trans hushape)
    fun haxes hsize => by
      refine ⟨⟨_, Walker.ofRank_of_le haxes ?_⟩, fun hhost => ?_,
        hx.opens hfits hinput hsize hsingle, hwritable.1, hunrepeated⟩
      · exact Nat.not_lt.mp fun hcap => hcapped ⟨hsize, Nat.pos_of_ne_zero haxes, hcap⟩
      · rw [Resolution.length_processingShape, Resolution.ofValue_rank hr]
        exact View.checkShape_rank hx.valid (hskind.symm.trans hhost)
  exact ⟨_, bind_eq_ok.mpr ⟨_, _, onStore_returns hwrite, rfl⟩⟩

end Config

namespace Sample

/-- Every row, and of the columns the last one, in a step far beyond it. -/
def farColumn : Value :=
  .masks { begins := [0, 2], ends := [0, 3], strides := [1, 2 ^ 58], beginMask := 1, endMask := 1 }

/-- The buffer of `pair` as a tensor of one column. -/
def column : View := { tensorPair with layout := .rowMajor [2, 1] }

/-- The first of two elements, in a step whose bytes are no number of 64 bits. -/
def farFirst : Value := .masks { begins := [0], ends := [2], strides := [2 ^ 63] }

end Sample

end Hyperslab
