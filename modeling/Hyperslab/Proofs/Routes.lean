import Hyperslab.Proofs.Ends
import Hyperslab.Proofs.Gradient
import Hyperslab.Proofs.Making

/-!
# Every route gives the same

A route other than the strided walk is taken for steps of one only.  Then the window
of the walk opens as well, and every route gives the elements selected, or is refused
for the axes of the final shape.  So the switches of a configuration do not show in
what its slices give.
-/

namespace Hyperslab

open Store (Extends)

namespace View

/-- What the library of an array sees to: its elements have cells, its shape is one that arrays of
the library have, its strides are numbers of 64 bits, which count bytes on the host, no tensor is
reversed, and gradients are tracked through tensors only. -/
structure Proper (v : View) (s : Store) : Prop where
  within : v.Within s
  valid : checkShape v.kind v.type v.shape = .ok ()
  strides : ∀ d ∈ v.layout.dims, ElementType.int64.inRange
    (d.stride * (match v.kind with | .host => v.type.itemSize | .tensor => 1 : Nat)) = true
  forward : v.kind = .tensor → v.isReversed = false
  untracked : v.kind = .host → v.tracking = .untracked

instance (v : View) (s : Store) : Decidable (v.Proper s) :=
  decidable_of_iff (v.Within s ∧ checkShape v.kind v.type v.shape = .ok () ∧
    (∀ d ∈ v.layout.dims, ElementType.int64.inRange
      (d.stride * (match v.kind with | .host => v.type.itemSize | .tensor => 1 : Nat)) = true) ∧
    (v.kind = .tensor → v.isReversed = false) ∧ (v.kind = .host → v.tracking = .untracked))
    ⟨fun ⟨hwithin, hvalid, hstrides, hforward, huntracked⟩ =>
        ⟨hwithin, hvalid, hstrides, hforward, huntracked⟩,
      fun h => ⟨h.within, h.valid, h.strides, h.forward, h.untracked⟩⟩

/-- A stride that is a number of 64 bits in bytes is one in elements. -/
theorem inRange_of_mul {n : Int} {k : Nat} (hk : 0 < k)
    (h : ElementType.int64.inRange (n * k) = true) :
    ElementType.int64.inRange (n * (1 : Nat)) = true := by
  rw [inRange_iff] at h ⊢
  have hk : (1 : Int) ≤ k := by omega
  rw [Int.natCast_one, Int.mul_one]
  rcases Int.lt_or_le n 0 with hn | hn
  · have := Int.mul_le_mul_of_nonpos_left hn.le hk
    omega
  · have := Int.mul_le_mul_of_nonneg_left hk hn
    omega

theorem Proper.ofKind {v u : View} {s : Store} {kind : ArrayKind} (h : v.Proper s)
    (hk : kind = .host → v.kind = .host) (hu : v.ofKind kind = .ok u) : u.Proper s := by
  obtain ⟨k, type, buffer, layout, writeable, tracking⟩ := v
  cases k with
  | tensor =>
    cases kind with
    | host => cases hk rfl
    | tensor =>
      cases hu
      exact h
  | host =>
    cases kind with
    | host =>
      cases hu
      exact h
    | tensor =>
      simp only [View.ofKind] at hu
      split_ifs at hu with _ hforward
      cases hu
      refine ⟨h.within.ofKind .tensor true _, checkTensor_of_checkHost h.valid, fun d hd => ?_,
        fun _ => ?_, fun hhost => ?_⟩
      · exact inRange_of_mul (itemSize_pos type) (h.strides d hd)
      · exact Bool.not_eq_true _ ▸ hforward
      · cases hhost

/-- The window of a walk in steps of one has strides of the array. -/
theorem Proper.addressable {v : View} {s : Store} {is : List Interval} (h : v.Proper s)
    (hone : ∀ i ∈ is, i.step = 1) (extents : Shape) :
    (v.layout.window is extents).Addressable v.kind v.type := by
  have hdims : ∀ d ∈ (v.layout.window is extents).dims,
      ∃ e ∈ v.layout.dims, d.stride = e.stride := by
    intro d hd
    obtain ⟨e, he, i, hi, hstride⟩ := Layout.mem_window_dims hd
    rw [hone i hi, Int.one_mul] at hstride
    exact ⟨e, he, hstride⟩
  have hstrides := h.strides
  unfold Layout.Addressable
  cases hk : v.kind with
  | host =>
    rw [hk] at hstrides
    refine List.all_eq_true.mpr fun d hd => ?_
    obtain ⟨e, he, hstride⟩ := hdims d hd
    rw [hstride]
    exact hstrides e he
  | tensor =>
    rw [hk] at hstrides
    intro d hd
    obtain ⟨e, he, hstride⟩ := hdims d hd
    have hforward := List.any_eq_false.mp (h.forward hk) e he
    rw [decide_eq_true_eq, Int.not_lt] at hforward
    have hfit := hstrides e he
    rw [Int.natCast_one, Int.mul_one] at hfit
    have habs : (e.stride.natAbs : Int) = e.stride := Int.natAbs_of_nonneg hforward
    rw [hstride, habs]
    exact hfit

theorem reshape_stops {v : View} {shape : Shape} (hk : v.kind = .host)
    (hrank : maxAxes < shape.length) (s : Store) :
    ∃ s', v.reshape shape s = .error .tooManyAxes s' := by
  unfold reshape
  rw [if_pos ⟨hk, hrank⟩]
  exact ⟨s, rfl⟩

theorem zeros_stops {type : ElementType} {shape : Shape} (hrank : maxAxes < shape.length)
    (s : Store) : ∃ s', zeros .host type shape s = .error .tooManyAxes s' := by
  unfold zeros
  have hcheck : checkShape .host type shape = .error .tooManyAxes := if_pos hrank
  rw [hcheck]
  exact ⟨s, rfl⟩

end View

theorem Walker.ofRank_of_le {rank cap : Nat} (h0 : rank ≠ 0) (h : rank ≤ cap) :
    Walker.ofRank rank cap = .ok ⟨rank⟩ :=
  if_neg (by omega)

/-- Only a host array is sliced as one. -/
theorem Backend.host_of_choose {choice : BackendChoice} {device : String} {b : Backend} {v : View}
    (h : choose choice device [.array v] = .ok b) (hb : b.kind = .host) : v.kind = .host := by
  have hkind := kind_of_choose h
  rw [hb] at hkind
  cases choice with
  | auto => exact hkind.symm
  | fixed kind =>
    obtain rfl : kind = .host := hkind.symm
    cases hv : v.kind with
    | host => rfl
    | tensor =>
      simp only [choose, List.any_cons, Operand.isTensor, hv] at h
      cases h

namespace Config

variable {c d : Config} {b : Backend} {v : View} {r : Resolution} {route : Route} {s : Store}
  {w : Workspace}

/-! ## Extractions -/

/-- Routes in bulk serve walks in steps of one. -/
theorem Serves.step_one (h : c.Serves b v r route) (hroute : route ≠ .walk) :
    ∀ i ∈ r.intervals, i.step = 1 := by
  have hwhole : ∀ a : AxisSelection, a.isWhole = true → a.interval.step = 1 := by
    intro a ha
    rw [Interval.isWhole_iff.mp ha]
    rfl
  intro i hi
  obtain ⟨a, ha, rfl⟩ := List.mem_map.mp hi
  cases route with
  | identity => exact hwhole a (List.all_eq_true.mp h a ha)
  | lead =>
    obtain ⟨hlead, _, hrank⟩ := h
    unfold Resolution.isLead at hlead
    cases haxes : r.axes with
    | nil => exact absurd (congrArg List.length haxes) hrank
    | cons first rest =>
      rw [haxes] at hlead ha
      rw [Bool.and_eq_true, beq_iff_eq] at hlead
      rcases List.mem_cons.mp ha with rfl | ha
      · exact hlead.1
      · exact hwhole a (List.all_eq_true.mp hlead.2 a ha)
  | rows => exact beq_iff_eq.mp (List.all_eq_true.mp h.1 a ha)
  | walk => exact absurd rfl hroute

theorem extract_stops (hf : r.Fits) (hr : r.inputShape = v.shape) (hk : v.kind = .host)
    (hroute : c.Serves b v r route) (hmemory : View.bytes v.kind v.type r.finalShape ≤ s.limit)
    (hopens : r.axes.length ≠ 0 → r.size ≠ 0 → v.Opens s r.intervals r.processingShape)
    (hrank : maxAxes < r.finalShape.length) :
    ∃ s', c.extract v r route s = .error .tooManyAxes s' := by
  have hzeros : ∃ s', View.zeros v.kind v.type r.finalShape s = .error .tooManyAxes s' := by
    rw [hk]
    exact View.zeros_stops hrank s
  cases route with
  | identity => exact stops_bind (View.reshape_stops hk hrank s) _
  | lead =>
    obtain ⟨_, hcontiguous, haxes⟩ := hroute
    simp only [extract, View.copyLead]
    cases hlead : r.axes with
    | nil => exact absurd (congrArg List.length hlead) haxes
    | cons lead rest =>
      obtain ⟨_, hflat, _⟩ := View.flat_returns s hcontiguous
      refine bind_stops hflat (stops_bind (View.reshape_stops ?_ hrank s) _)
      exact (View.flat_kind hflat).trans hk
  | rows =>
    simp only [extract]
    split_ifs
    · exact hzeros
    · obtain ⟨rows, cols, haxes⟩ := List.length_eq_two.mp hroute.2.1
      unfold View.copyPlane
      rw [Resolution.intervals, haxes]
      exact stops_bind hzeros _
  | walk =>
    obtain ⟨haxes, hcap⟩ := hroute
    simp only [extract]
    split_ifs with hsize
    · exact hzeros
    · obtain ⟨w, hw⟩ := hcap hsize
      rw [View.bytes_congr (Resolution.filter_finalShape hf)] at hmemory
      obtain ⟨out, s₁, hout⟩ := Resolution.walk_returns hr hw (hopens haxes hsize) hmemory
      exact bind_stops hout
        (View.reshape_stops ((Resolution.walk_kind hout).trans hk) hrank s₁)

/-- What a caller sees of an extraction: the elements, or the fault. -/
def extracted (c : Config) (v : View) (r : Resolution) (route : Route) (s : Store) :
    Except Fault Literal :=
  match c.extract v r route s with
  | .ok out s' => .ok ⟨out.type, out.shape, out.codes s'⟩
  | .error e _ => .error e

/-- Where the window opens, every route that serves a selection gives the same. -/
theorem extracted_eq (hv : v.Proper s) (hf : r.Fits) (hr : r.inputShape = v.shape)
    (hkind : v.kind = b.kind) (hroute : c.Serves b v r route)
    (hmemory : View.bytes v.kind v.type r.finalShape ≤ s.limit)
    (hopens : r.axes.length ≠ 0 → r.size ≠ 0 → v.Opens s r.intervals r.processingShape) :
    c.extracted v r route s =
      if v.kind = .host ∧ maxAxes < r.finalShape.length then .error .tooManyAxes
      else .ok ⟨v.type, r.finalShape, r.selected.map (v.elementAt s)⟩ := by
  unfold extracted
  by_cases hrank : v.kind = .host ∧ maxAxes < r.finalShape.length
  · obtain ⟨s', hstop⟩ := extract_stops hf hr hrank.1 hroute hmemory hopens hrank.2
    rw [if_pos hrank, hstop]
  · have hshape : View.checkShape v.kind v.type r.finalShape = .ok () :=
      (View.checkShape_shrinks (r.finalShape_shrinks hf) (hr ▸ hv.valid)).resolve_right hrank
    obtain ⟨out, s', hout⟩ :=
      extract_returns hv.within hf hr hkind hroute ⟨hshape, hmemory⟩ hopens
    obtain ⟨_, hshow⟩ := extract_shows hv.within hf hr hroute hout
    rw [if_neg hrank, hout]
    dsimp only
    rw [hshow.type_eq, hshow.shape_eq, hshow.codes_eq]

/-- The strided walk reads nothing of a configuration but its cap. -/
theorem extracted_walk (h0 : r.axes.length ≠ 0) (hc : r.axes.length ≤ c.maxRank)
    (hd : r.axes.length ≤ d.maxRank) : c.extracted v r .walk s = d.extracted v r .walk s := by
  unfold extracted extract Resolution.walk
  rw [Walker.ofRank_of_le h0 hc, Walker.ofRank_of_le h0 hd]

/-- The route does not matter to what an extraction gives, as long as there is memory for it. -/
theorem extracted_congr {route' : Route} (hv : v.Proper s) (hf : r.Fits)
    (hr : r.inputShape = v.shape) (hkind : v.kind = b.kind) (hroute : c.Serves b v r route)
    (hroute' : d.Serves b v r route')
    (hmemory : View.bytes v.kind v.type r.finalShape ≤ s.limit) (hc : r.axes.length ≤ c.maxRank)
    (hd : r.axes.length ≤ d.maxRank) : c.extracted v r route s = d.extracted v r route' s := by
  by_cases hwalk : route = .walk ∧ route' = .walk
  · obtain ⟨rfl, rfl⟩ := hwalk
    exact extracted_walk hroute.1 hc hd
  · have hone : ∀ i ∈ r.intervals, i.step = 1 := by
      by_cases h : route = .walk
      · exact hroute'.step_one fun h' => hwalk ⟨h, h'⟩
      · exact hroute.step_one h
    have hopens : r.axes.length ≠ 0 → r.size ≠ 0 → v.Opens s r.intervals r.processingShape :=
      fun _ hsize => View.opens_of_addressable hv.within hf hr hsize
        (hv.addressable hone r.processingShape)
    rw [extracted_eq hv hf hr hkind hroute hmemory hopens,
      extracted_eq hv hf hr hkind hroute' hmemory hopens]

/-! ## Slices -/

/-- What a caller sees of a call that gives an array: the elements, or the fault. -/
def seen : EStateM.Result Fault Workspace View → Except Fault Literal
  | .ok out w => .ok ⟨out.type, out.shape, out.codes w.store⟩
  | .error e _ => .error e

theorem seen_lift {α : Type} (x : Except Fault α) (f : α → Call View) (w : Workspace) :
    seen ((ofExcept x >>= f) w) = x >>= fun a => seen (f a w) := by
  cases x <;> rfl

theorem seen_onStore_lift {α : Type} (x : Except Fault α) (f : α → Call View) (w : Workspace) :
    seen ((Workspace.onStore (ofExcept x) >>= f) w) = x >>= fun a => seen (f a w) := by
  cases x <;> rfl

/-- A slice is an extraction, once everything else has been settled. -/
theorem seen_slice (c : Config) (v : View) (spec : Value) (w : Workspace) :
    seen (c.slice (.array v) spec w) = (do
      let b ← Backend.choose c.backend c.device [.array v]
      let source ← v.ofKind b.kind
      let r ← Resolution.ofValue source.shape spec
      let route ← c.route b source r
      c.extracted source r route w.store) := by
  have hextract : ∀ (b : Backend) (source : View) (r : Resolution) (route : Route),
      seen ((do
        let out ← Workspace.onStore (c.extract source r route)
        c.record .slice r (some ⟨route, b, source.type.itemSize⟩)
        return out : Call View) w) = c.extracted source r route w.store := by
    intro b source r route
    show seen (EStateM.bind _ _ w) = _
    unfold EStateM.bind Workspace.onStore extracted
    cases c.extract source r route w.store <;> rfl
  unfold slice
  simp only [seen_lift, Operand.toView, seen_onStore_lift, hextract]

end Config

namespace Sample

/-- Everything that a row of two has, which needs no walk. -/
def everything : Value := .masks { begins := [0], ends := [1], strides := [1] }

/-- No rows of very many columns each, for which a host array would take memory all the same. -/
def hollow : View :=
  { kind := .host, type := .int64, buffer := 0, layout := .rowMajor [0, Number.twoTo 59] }

def void : Workspace := { store := { buffers := #[#[]] } }

end Sample

end Hyperslab
