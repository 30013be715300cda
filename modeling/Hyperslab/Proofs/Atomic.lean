import Hyperslab.Proofs.Origins

/-!
# Calls that fail change nothing

A call that stops at a fault keeps the log and every cell there was; new buffers may
be left over that no array has.  A call that returns has added one entry to the log.
-/

namespace Hyperslab

open Store (Extends)

namespace Workspace

/-- The log is as it was, and there are no fewer buffers. -/
structure Grows (w w' : Workspace) : Prop where
  count : w.store.buffers.size ≤ w'.store.buffers.size
  log : w'.log = w.log

/-- The log and every cell are as they were. -/
structure Keeps (w w' : Workspace) : Prop where
  store : Extends w.store w'.store
  log : w'.log = w.log

/-- The log has one entry more, for a call of the given kind. -/
structure Logs (kind : CallKind) (w w' : Workspace) : Prop where
  count : w.store.buffers.size ≤ w'.store.buffers.size
  log : ∃ e : LogEntry, w'.log = w.log ++ [e] ∧ e.kind = kind

variable {w w₁ w' : Workspace} {source : Option Nat} {kind : CallKind}

theorem Keeps.refl (w : Workspace) : w.Keeps w := ⟨Extends.refl w.store, rfl⟩

theorem Keeps.grows (h : w.Keeps w') : w.Grows w' := ⟨h.store.count, h.log⟩

/-- A fault after steps that kept everything. -/
theorem Keeps.ends {α : Type} {x : EStateM.Result Fault Workspace α} {Q : α → Workspace → Prop}
    (h : w.Keeps w₁) (hx : Ends x Q w₁.Keeps) : Ends x Q w.Keeps :=
  hx.mono (fun _ _ hq => hq) fun _ he => ⟨h.store.trans he.store, he.log.trans h.log⟩

theorem Grows.logs (h : w.Grows w₁) (h' : Logs kind w₁ w') : Logs kind w w' := by
  refine ⟨Nat.le_trans h.count h'.count, ?_⟩
  rw [← h.log]
  exact h'.log

theorem onStore_yields {x : Memory View}
    (h : Ends (x w.store) (Yields source w.store) (Extends w.store)) :
    Ends (onStore x w) (fun out w' => w.Keeps w' ∧ Yields source w.store out w'.store) w.Keeps :=
  Ends.onStore (h.mono (fun _ _ hout => ⟨⟨hout.kept, rfl⟩, hout⟩) fun _ hs => ⟨hs, rfl⟩)

end Workspace

open Workspace (Grows Keeps Logs)

namespace Config

variable (c : Config) (w : Workspace)

theorem record_ends (kind : CallKind) (r : Resolution) (x : Option Execution)
    (E : Workspace → Prop) :
    Ends (c.record kind r x w) (fun _ w' => w'.store = w.store ∧ Logs kind w w') E :=
  ⟨rfl, Nat.le_refl _, _, rfl, rfl⟩

theorem onStore_write_ends (v : View) (r : Resolution) (mode : WalkMode) (values : View) :
    Ends (Workspace.onStore (c.write v r mode values) w)
      (fun _ w' => w.Grows w' ∧ w.store.Written v.buffer w'.store) w.Keeps :=
  Ends.onStore ((c.write_ends v r mode values w.store).mono
    (fun _ _ h => ⟨⟨h.covers.count, rfl⟩, h⟩) fun _ h => ⟨h, rfl⟩)

theorem resolve_ends (shape spec : Value) :
    Ends (c.resolve shape spec w) (fun _ w' => Logs .resolve w w' ∧ w'.store = w.store)
      w.Keeps := by
  unfold Config.resolve
  refine Ends.lift_bind (Keeps.refl w) fun _ _ => Ends.lift_bind (Keeps.refl w) fun r _ => ?_
  exact (c.record_ends w .resolve r none _).bind fun _ _ h => Ends.ret h.symm

/-- The array that a slice gives has new cells, or those of its operand. -/
theorem slice_ends (o : Operand) (spec : Value) :
    Ends (c.slice o spec w)
      (fun out w' => Logs .slice w w' ∧ Yields o.buffer? w.store out w'.store) w.Keeps := by
  unfold Config.slice
  refine Ends.lift_bind (Keeps.refl w) fun b _ => ?_
  refine (Workspace.onStore_yields (o.toView_yields b.kind w.store)).bind fun source w₁ h₁ => ?_
  obtain ⟨hkept₁, hsource⟩ := h₁
  refine Ends.lift_bind hkept₁ fun r _ => Ends.lift_bind hkept₁ fun route _ => hkept₁.ends ?_
  refine (Workspace.onStore_yields (c.extract_yields source r route w₁.store)).bind
    fun out w₂ h₂ => ?_
  obtain ⟨hkept₂, hout⟩ := h₂
  refine (c.record_ends w₂ .slice r _ _).bind fun _ w₃ h₃ => Ends.ret ⟨?_, ?_⟩
  · exact hkept₁.grows.logs (hkept₂.grows.logs h₃.2)
  · rw [h₃.1]
    exact hsource.trans hout

/-- The array that a gradient gives has new cells. -/
theorem grad_ends (shape : Operand) (spec : Value) (dy : Operand) :
    Ends (c.grad shape spec dy w)
      (fun out w' => Logs .grad w w' ∧ Yields none w.store out w'.store) w.Keeps := by
  unfold Config.grad
  refine Ends.read_bind (Ends.lift_bind (Keeps.refl w) fun input _ =>
    Ends.lift_bind (Keeps.refl w) fun b _ => ?_)
  refine (Workspace.onStore_yields (dy.toView_yields b.kind w.store)).bind fun seen w₁ h₁ => ?_
  obtain ⟨hkept₁, _⟩ := h₁
  refine Ends.lift_bind hkept₁ fun r _ => Ends.check hkept₁ fun _ => hkept₁.ends ?_
  have hrun : Ends ((do
      let out ← Workspace.onStore (View.zeros b.kind seen.type input)
      Workspace.onStore (c.write out r .gradient seen)
      c.record .grad r (some ⟨writeRoute r, b, seen.type.itemSize⟩)
      return out : Call View) w₁)
      (fun out w' => Logs .grad w w' ∧ Yields none w.store out w'.store) w₁.Keeps := by
    refine (Workspace.onStore_yields (View.zeros_yields _ _ _ w₁.store)).bind fun out w₂ h₂ => ?_
    obtain ⟨hkept₂, hout⟩ := h₂
    refine hkept₂.ends ((c.onStore_write_ends w₂ out r .gradient seen).bind fun _ w₃ h₃ => ?_)
    obtain ⟨hgrows, hwritten⟩ := h₃
    refine (c.record_ends w₃ .grad r _ _).bind fun _ w₄ h₄ => Ends.ret ⟨?_, ?_⟩
    · exact hkept₁.grows.logs (hkept₂.grows.logs (hgrows.logs h₄.2))
    · -- The write is to the buffer of the result, which is a new one.
      have hlt := hout.lt_count fun _ hb => nomatch hb
      have hcount := hgrows.count
      have hold := hkept₁.store.count
      have hnew := hout.new_le
      rw [h₄.1]
      refine ⟨hkept₁.store.trans ?_, .inr ⟨by omega, by omega⟩⟩
      exact (Store.Written.of_extends hkept₂.store hwritten).extends_of_new hnew
  dsimp only
  split
  · exact Ends.lift_bind (Keeps.refl w₁) fun _ _ => hrun
  · exact hrun

/-- An assignment writes to the buffer of its target and to no other. -/
theorem assign_ends (target : Operand) (spec : Value) (value : Operand) :
    Ends (c.assign target spec value w)
      (fun _ w' => Logs .assign w w' ∧ ∃ (b : Backend) (ref : View), b.target target = .ok ref ∧
        w.store.Written ref.buffer w'.store) w.Keeps := by
  unfold Config.assign
  refine Ends.lift_bind (Keeps.refl w) fun b _ => Ends.lift_bind (Keeps.refl w) fun ref href =>
    Ends.lift_bind (Keeps.refl w) fun r _ => ?_
  refine (Workspace.onStore_yields (value.toViewOf_yields b.kind ref.type w.store)).bind
    fun values w₁ h₁ => ?_
  obtain ⟨hkept, _⟩ := h₁
  refine Ends.check hkept fun _ => hkept.ends ?_
  refine (c.onStore_write_ends w₁ ref r .assign values).bind fun _ w₂ h₂ => ?_
  obtain ⟨hgrows, hwritten⟩ := h₂
  refine (c.record_ends w₂ .assign r _ _).mono (fun _ w₃ h => ⟨?_, ?_⟩) fun _ h => h
  · exact hkept.grows.logs (hgrows.logs h.2)
  · refine ⟨b, ref, href, ?_⟩
    rw [h.1]
    exact hwritten.of_extends hkept.store

end Config

end Hyperslab
