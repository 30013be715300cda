import Hyperslab.Engine
import Hyperslab.Proofs.Rows

/-!
# Slices

Each route is taken only for selections that it serves, and then it gives what the
strided walk gives.  So a slice shows the elements selected, whatever the
configuration.
-/

namespace Hyperslab

open Store (Extends)

/-! ## Routes -/

/-- A selection without axes is the whole of an array without axes. -/
theorem Resolution.isIdentity_of_rank_zero {r : Resolution} (h : r.axes.length = 0) :
    r.isIdentity = true := by
  rw [isIdentity, List.length_eq_zero_iff.mp h]
  rfl

namespace Config

variable {c : Config} {b : Backend} {v out : View} {r : Resolution} {route : Route} {s s' : Store}

/-- What a route asks of the call that takes it. -/
def Serves (c : Config) (b : Backend) (v : View) (r : Resolution) : Route → Prop
  | .identity => r.isIdentity = true
  | .lead => r.isLead = true ∧ v.layout.isContiguous = true ∧ r.axes.length ≠ 0
  | .rows => r.isSimple = true ∧ r.axes.length = 2 ∧ b.kind = .host
  | .walk => r.axes.length ≠ 0 ∧
      (r.size ≠ 0 → ∃ w, Walker.ofRank r.axes.length c.maxRank = .ok w)

theorem choose_serves (h : Route.choose r v.layout.isContiguous b.rowCopies = route)
    (hwalk : route = .walk → c.Serves b v r .walk) : c.Serves b v r route := by
  unfold Route.choose at h
  dsimp only at h
  split_ifs at h with hidentity hlead hrows
  · rw [← h]
    exact hidentity
  · rw [Bool.and_eq_true, Bool.and_eq_true, bne_iff_ne] at hlead
    rw [← h]
    exact ⟨hlead.1.1, hlead.1.2, hlead.2⟩
  · simp only [Bool.and_eq_true, beq_iff_eq] at hrows
    rw [← h]
    exact ⟨hrows.1.1.1.2, hrows.1.2, beq_iff_eq.mp hrows.1.1.1.1⟩
  · rw [← h]
    exact hwalk h.symm

theorem route_serves (h : c.route b v r = .ok route) : c.Serves b v r route := by
  unfold Config.route at h
  by_cases hrank : r.axes.length = 0
  · simp only [if_pos hrank, except_pure_eq_ok] at h
    rw [← h]
    exact Resolution.isIdentity_of_rank_zero hrank
  · simp only [if_neg hrank] at h
    generalize hchosen :
      (if c.fastPaths = true then Route.choose r v.layout.isContiguous b.rowCopies
        else Route.walk) = chosen at h
    have hroute : chosen = route ∧
        (route = .walk → r.size ≠ 0 → ∃ w, Walker.ofRank r.axes.length c.maxRank = .ok w) := by
      split_ifs at h with hwalk
      · simp only [except_bind_eq_ok, except_pure_eq_ok] at h
        obtain ⟨w, hw, h⟩ := h
        exact ⟨h, fun _ _ => ⟨w, hw⟩⟩
      · have h := except_pure_eq_ok.mp h
        exact ⟨h, fun hr hsize => absurd ⟨h.trans hr, hsize⟩ hwalk⟩
    obtain ⟨rfl, hcap⟩ := hroute
    split_ifs at hchosen
    · exact choose_serves hchosen fun hr => ⟨hrank, hcap hr⟩
    · rw [← hchosen]
      exact ⟨hrank, hcap hchosen.symm⟩

/-! ## Extraction -/

/-- An extraction by a route that serves the selection shows the elements selected. -/
theorem extract_shows (hv : v.Within s) (hf : r.Fits) (hr : r.inputShape = v.shape)
    (hroute : c.Serves b v r route) (h : c.extract v r route s = .ok out s') :
    Extends s s' ∧ out.Shows s' v.type r.finalShape (r.selected.map (v.elementAt s)) := by
  have hzeros : r.size = 0 → View.zeros v.kind v.type r.finalShape s = .ok out s' →
      Extends s s' ∧ out.Shows s' v.type r.finalShape (r.selected.map (v.elementAt s)) := by
    intro hsize h
    obtain ⟨_, hext, hshow⟩ := View.zeros_spec h
    rw [Resolution.size_finalShape hf, hsize, List.replicate_zero] at hshow
    rw [List.length_eq_zero_iff.mp (r.length_selected.trans hsize)]
    exact ⟨hext, hshow⟩
  cases route with
  | identity => exact View.copyIdentity_shows hv hr hroute h
  | lead => exact View.copyLead_shows hv hf hr hroute.1 h
  | rows =>
    simp only [extract] at h
    split_ifs at h with hsize
    · exact hzeros hsize h
    · exact View.copyPlane_shows hv hf hr hroute.1 h
  | walk =>
    simp only [extract] at h
    split_ifs at h with hsize
    · exact hzeros hsize h
    · simp only [bind_eq_ok] at h
      obtain ⟨walked, s₁, hwalk, hreshape⟩ := h
      obtain ⟨hext, hshow⟩ := Resolution.walk_shows hr hwalk
      obtain ⟨hext', hshow'⟩ := View.reshape_shows hshow.within hreshape
      rw [hshow.type_eq, hshow.codes_eq] at hshow'
      exact ⟨hext.trans hext', hshow'⟩

theorem record_eq_ok {kind : CallKind} {x : Option Execution} {w w' : Workspace} {u : Unit} :
    c.record kind r x w = .ok u w' ↔ { w with log := w.log ++ [c.entry kind r x] } = w' :=
  modify_eq_ok

end Config

/-! ## Operands -/

/-- An array seen as one of a kind is a window onto the same cells. -/
theorem View.ofKind_eq_ok {v u : View} {kind : ArrayKind} (h : v.ofKind kind = .ok u) :
    ∃ writeable start, u = { v with kind, writeable, start } ∧
      (kind = .tensor → start = v.base) := by
  obtain ⟨k, type, buffer, layout, writeable, tracking, start⟩ := v
  cases k with
  | host =>
    cases kind with
    | host =>
      cases h
      exact ⟨writeable, start, rfl, fun hk => (nomatch hk)⟩
    | tensor =>
      simp only [View.ofKind] at h
      split_ifs at h
      cases h
      exact ⟨true, layout.offset, rfl, fun _ => rfl⟩
  | tensor =>
    cases kind with
    | host =>
      simp only [View.ofKind] at h
      split_ifs at h
      cases h
      exact ⟨true, start, rfl, fun hk => (nomatch hk)⟩
    | tensor =>
      cases h
      exact ⟨writeable, start, rfl, fun _ => rfl⟩

theorem View.ofKind_same {kind : ArrayKind} {u seen : View} (h : u.ofKind kind = .ok seen) :
    seen.kind = kind ∧ seen.type = u.type ∧ seen.shape = u.shape := by
  obtain ⟨_, _, rfl, _⟩ := ofKind_eq_ok h
  exact ⟨rfl, rfl, rfl⟩

/-- The storages of arrays that become tensors are told apart as those of the tensors are. -/
theorem View.Guarded.ofKind {u target seen : View} (h : u.Guarded target)
    (hseen : u.ofKind target.kind = .ok seen) : seen.Guarded target := by
  obtain ⟨writeable, start, rfl, hstart⟩ := View.ofKind_eq_ok hseen
  intro htensor hshares
  have hbase : View.base { u with kind := target.kind, writeable, start } = start :=
    View.base_of_tensor htensor
  rw [hbase, hstart htensor, h htensor hshares]

theorem View.Within.ofKind {v : View} {s : Store} (h : v.Within s) (kind : ArrayKind)
    (writeable : Bool) (start : Int) : View.Within { v with kind, writeable, start } s :=
  ⟨h.buffer, h.cells⟩

/-! ## Slices -/

namespace Config

variable {c : Config} {v out : View} {spec : Value} {w w' : Workspace}

/-- The stages of a slice. -/
theorem slice_eq_ok {o : Operand} (h : c.slice o spec w = .ok out w') :
    ∃ b source s₁ r route, Backend.choose c.backend c.device [o] = .ok b ∧
      o.toView b.kind w.store = .ok source s₁ ∧ Resolution.ofValue source.shape spec = .ok r ∧
      c.route b source r = .ok route ∧ c.extract source r route s₁ = .ok out w'.store ∧
      w'.log = w.log ++ [c.entry .slice r (some ⟨route, b, source.type.itemSize⟩)] := by
  simp only [slice, bind_eq_ok, ofExcept_eq_ok, onStore_eq_ok, record_eq_ok, pure_eq_ok] at h
  obtain ⟨b, _, ⟨hb, rfl⟩, source, _, ⟨s₁, hsource, rfl⟩, r, _, ⟨hr, rfl⟩, route, _,
    ⟨hroute, rfl⟩, made, _, ⟨s', hmade, rfl⟩, _, _, rfl, rfl, rfl⟩ := h
  exact ⟨b, source, s₁, r, route, hb, hsource, hr, hroute, hmade, rfl⟩

/-- A slice of an array shows the elements selected and leaves every cell as it was. -/
theorem slice_shows (hv : v.Within w.store) (h : c.slice (.array v) spec w = .ok out w') :
    ∃ r, Resolution.ofValue v.shape spec = .ok r ∧ Extends w.store w'.store ∧
      out.Shows w'.store v.type r.finalShape (r.selected.map (v.elementAt w.store)) := by
  obtain ⟨b, source, s₁, r, route, _, hsource, hr, hroute, hmade, _⟩ := slice_eq_ok h
  rw [Operand.toView, ofExcept_eq_ok] at hsource
  obtain ⟨hsource, rfl⟩ := hsource
  obtain ⟨writeable, _, rfl, _⟩ := View.ofKind_eq_ok hsource
  obtain ⟨hfits, hshape⟩ := Resolution.ofValue_fits hr
  have hshow := extract_shows (hv.ofKind b.kind writeable _) hfits hshape (route_serves hroute)
    hmade
  exact ⟨r, hr, hshow⟩

end Config

/-! A small memory, on which the results about calls can be seen at work. -/

namespace Sample

def cells : Workspace := { store := { buffers := #[#[10, 11, 12, 13, 14, 15], #[20, 21]] } }

/-- Two rows of three that take the first six cells from the last to the first. -/
def reversed : View :=
  { kind := .host, type := .int64, buffer := 0, layout := ⟨5, [⟨2, -3⟩, ⟨3, -1⟩]⟩ }

/-- A row of two in the other buffer. -/
def pair : View := { kind := .host, type := .int64, buffer := 1, layout := .rowMajor [1, 2] }

/-- The last row, a new axis, and every other column from the last one on. -/
def spec : Value :=
  .masks {
    begins := [-1, 0, 2], ends := [0, 0, 0], strides := [1, 1, -2]
    endMask := 4, newAxisMask := 2, shrinkMask := 1 }

end Sample

end Hyperslab
