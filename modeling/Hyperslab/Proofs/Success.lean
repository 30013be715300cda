import Hyperslab.Proofs.Assign
import Hyperslab.Proofs.Routes

/-!
# Calls that have to succeed

What a call needs from its arrays and its configuration in order to return.  A write
is refused where its window does not open, where its target is read-only, or where an
axis of a tensor repeats its cells; everything else that can go wrong is settled by the
shapes and by how much memory there is.
-/

namespace Hyperslab

open Store (Extends)

namespace View

variable {v u : View} {s : Store}

/-- The array can be seen as one of a kind: a host array that is seen as a tensor has numbers and is
not reversed, and gradients are not tracked through a tensor that is seen as a host array. -/
def ReadableAs (u : View) (kind : ArrayKind) : Prop :=
  (u.kind = .host → kind = .tensor → u.type ≠ .other ∧ u.isReversed = false) ∧
    (u.kind = .tensor → kind = .host → u.tracking = .untracked)

instance (u : View) (kind : ArrayKind) : Decidable (u.ReadableAs kind) :=
  inferInstanceAs (Decidable (_ ∧ _))

theorem ofKind_returns {kind : ArrayKind} (h : u.ReadableAs kind) :
    ∃ seen, u.ofKind kind = .ok seen := by
  unfold ofKind
  cases hu : u.kind with
  | host =>
    cases kind with
    | host => exact ⟨u, rfl⟩
    | tensor =>
      obtain ⟨htype, hforward⟩ := h.1 hu rfl
      exact ⟨_, by simp only [if_neg htype, hforward]; rfl⟩
  | tensor =>
    cases kind with
    | host => exact ⟨_, if_pos (h.2 hu rfl)⟩
    | tensor => exact ⟨u, rfl⟩

/-- A selection of distinct cells may be written where its window opens. -/
theorem takes_of_addressable {r : Resolution} (hv : v.Within s) (hd : v.places.Nodup)
    (hf : r.Fits) (hr : r.inputShape = v.shape) (hsize : r.size ≠ 0)
    (hwriteable : v.kind = .host → v.writeable = true)
    (hopens : (v.layout.window r.intervals r.processingShape).Addressable v.kind v.type) :
    v.Takes s r.intervals r.processingShape := by
  refine ⟨opens_of_addressable hv hf hr hsize hopens, hwriteable, fun _ => ?_⟩
  apply Layout.repeats_of_nodup
  rw [Resolution.places_window hr]
  exact Resolution.nodup_selected_places hf hr hd

end View

namespace Config

variable {c : Config} {v u seen : View} {r : Resolution} {spec : Value} {w : Workspace}
  {b : Backend}

theorem grad_succeeds {shape : Operand} {input : Shape} {dy : View}
    (hinput : shape.shape w.store = .ok input)
    (hb : Backend.choose c.backend c.device [.array dy] = .ok b) (hkind : dy.kind = b.kind)
    (hr : Resolution.ofValue input spec = .ok r) (hshape : dy.shape = r.finalShape)
    (hcap : r.axes.length ≤ c.maxRank) (hmade : w.store.Affords dy.kind dy.type input)
    (hopens : ((Layout.rowMajor input).window r.intervals r.processingShape).Addressable dy.kind
      dy.type) : ∃ out w', c.grad shape spec (.array dy) w = .ok out w' := by
  obtain ⟨hfits, hfit⟩ := Resolution.ofValue_fits hr
  have hseen : dy.ofKind b.kind = .ok dy := hkind ▸ dy.ofKind_self
  rw [hkind] at hmade hopens
  obtain ⟨out, s, hzeros⟩ := View.zeros_returns w.store hmade
  obtain ⟨rfl, hext, hshow⟩ := View.zeros_spec hzeros
  have hinput' := hfit.trans hshow.shape_eq.symm
  have hmode : WalkMode.gradient ≠ .extract := by decide
  obtain ⟨x, s', hwrite⟩ := write_of_takes hmode hfits hinput' hshape fun haxes hsize => by
    refine ⟨⟨_, Walker.ofRank_of_le haxes hcap⟩, fun hhost => ?_,
      View.takes_of_addressable hshow.within (Layout.rowMajor_fills input).nodup hfits hinput' hsize
        (fun _ => rfl) hopens⟩
    rw [Resolution.length_processingShape, Resolution.ofValue_rank hr]
    exact View.checkShape_rank hmade.valid (hkind.symm.trans hhost)
  unfold grad
  refine bind_returns (f := fun w => _) rfl (bind_returns (ofExcept_returns hinput w)
    (bind_returns (ofExcept_returns hb w) (bind_returns (onStore_returns (ofExcept_returns hseen _))
      (bind_returns (ofExcept_returns hr _) (guard_returns (not_not_intro hshape) ?_)))))
  have hrun : ∃ out w', (do
      let out ← Workspace.onStore (View.zeros b.kind dy.type input)
      Workspace.onStore (c.write out r .gradient dy)
      c.record .grad r (some ⟨writeRoute r, b, dy.type.itemSize⟩)
      return out : Call View) w = .ok out w' :=
    bind_returns (onStore_returns hzeros) (bind_returns (onStore_returns hwrite) ⟨_, _, rfl⟩)
  dsimp only
  split_ifs with hwalk
  · exact bind_returns (ofExcept_returns (Walker.ofRank_of_le hwalk.1 hcap) _) hrun
  · exact hrun

/-- An assignment succeeds with values of either kind and of any type, which are brought to the kind
and the type of the target. -/
theorem assign_succeeds (hu : u.Within w.store)
    (hb : Backend.choose c.backend c.device [.array v] = .ok b)
    (htarget : b.target (.array v) = .ok v) (hseen : u.ofKind b.kind = .ok seen)
    (hr : Resolution.ofValue v.shape spec = .ok r) (hshape : u.shape = r.finalShape)
    (hmemory : u.type ≠ v.type → View.bytes b.kind v.type r.finalShape ≤ w.store.limit)
    (hwalk : r.axes.length ≠ 0 → r.size ≠ 0 →
      (∃ w, Walker.ofRank r.axes.length c.maxRank = .ok w) ∧
        (b.kind = .host → r.processingShape.length ≤ maxAxes) ∧
        v.Takes w.store r.intervals r.processingShape) (hv : v.buffer < w.store.buffers.size) :
    ∃ w', c.assign (.array v) spec (.array u) w = .ok () w' := by
  obtain ⟨hfits, hinput⟩ := Resolution.ofValue_fits hr
  obtain ⟨writeable, start, rfl, _⟩ := View.ofKind_eq_ok hseen
  rw [← hshape] at hmemory
  obtain ⟨values, s, hvalues⟩ : ∃ values s, View.ofType { u with kind := b.kind, writeable, start }
      v.type w.store = .ok values s := View.ofType_returns hmemory
  obtain ⟨hkind, hext, hshow⟩ := View.ofType_shows (hu.ofKind b.kind writeable start) hvalues
  have hcall : (Operand.array u).toViewOf b.kind v.type w.store = .ok values s :=
    bind_eq_ok.mpr ⟨_, w.store, ofExcept_returns hseen w.store, hvalues⟩
  have hvshape : values.shape = r.finalShape := hshow.shape_eq.trans hshape
  have hmode : WalkMode.assign ≠ .extract := by decide
  obtain ⟨_, s', hwrite⟩ := write_of_takes hmode hfits hinput hvshape fun haxes hsize => by
    obtain ⟨hw, hrank, htakes⟩ := hwalk haxes hsize
    exact ⟨hw, fun hhost => hrank (hkind.symm.trans hhost),
      htakes.of_extent (hext.extent v.buffer hv)⟩
  have hrun : ∃ x w', c.assign (.array v) spec (.array u) w = .ok x w' := by
    unfold assign
    exact bind_returns (ofExcept_returns hb w) (bind_returns (ofExcept_returns htarget w)
      (bind_returns (ofExcept_returns hr w) (bind_returns (onStore_returns hcall)
        (guard_returns (not_not_intro hvshape)
          (bind_returns (onStore_returns hwrite) ⟨_, _, rfl⟩)))))
  obtain ⟨_, w', hrun⟩ := hrun
  exact ⟨w', hrun⟩

end Config

end Hyperslab
