import Hyperslab.Proofs.Aliases
import Hyperslab.Proofs.Gradient
import Hyperslab.Proofs.Sessions

/-!
# Read-only arrays

Cells that only read-only host arrays have can be written through none of them.  A
window is writeable only if its source is, with one exception: a slice that is not
copied and sees a host array as a tensor gives a tensor with the cells of the array,
and every tensor can be written.  Without such a slice read-only arrays keep their
elements.
-/

namespace Hyperslab

open Store (Extends)
open Workspace (Logs)

/-! ## Buffers that are spared -/

/-- The cells of a buffer are as they were, and no buffer is lost. -/
structure Store.Spares (s : Store) (k : Nat) (s' : Store) : Prop where
  count : s.buffers.size ≤ s'.buffers.size
  read : ∀ p, s'.read k p = s.read k p

namespace Store.Spares

variable {s t s' : Store} {k buffer : Nat}

theorem refl (s : Store) (k : Nat) : s.Spares k s := ⟨Nat.le_refl _, fun _ => rfl⟩

theorem trans (h : s.Spares k t) (h' : t.Spares k s') : s.Spares k s' :=
  ⟨Nat.le_trans h.count h'.count, fun p => (h'.read p).trans (h.read p)⟩

theorem of_extends (h : Extends s s') (hk : k < s.buffers.size) : s.Spares k s' :=
  ⟨h.count, h.read k hk⟩

theorem of_written (h : s.Written buffer s') (hk : k < s.buffers.size) (hne : k ≠ buffer) :
    s.Spares k s' := by
  refine ⟨h.covers.count, fun p => ?_⟩
  obtain ⟨t, places, codes, ht, rfl⟩ := h
  rw [read_scatter_ne t hne, ht.read k hk]

theorem codes {v : View} (h : s.Spares v.buffer s') : v.codes s' = v.codes s :=
  List.map_congr_left fun p _ => h.read p

end Store.Spares

/-! ## Windows are as writeable as their source -/

namespace View

/-- An array in new cells, or one in the cells of the source that is writeable just where the source
is. -/
def Inherits (s : Store) (v out : View) : Prop :=
  out.buffer = v.buffer ∧ out.writeable = v.writeable ∨ s.buffers.size ≤ out.buffer

variable {v w out : View} {s s₁ s' : Store} {shape : Shape} {r : Resolution}

theorem Inherits.trans (h : Inherits s v w) (hs : Extends s s₁) (h' : Inherits s₁ w out) :
    Inherits s v out := by
  have hcount := hs.count
  rcases h' with ⟨hbuffer, hwriteable⟩ | hnew
  · rcases h with ⟨hb, hw⟩ | hnew
    · exact .inl ⟨hbuffer.trans hb, hwriteable.trans hw⟩
    · exact .inr (hbuffer ▸ hnew)
  · exact .inr (by omega)

theorem reshape_inherits (h : v.reshape shape s = .ok out s') : Inherits s v out := by
  rcases reshape_eq_ok h with ⟨rfl, l, rfl, _, _⟩ | ⟨_, w, hw, rfl⟩
  · exact .inl ⟨rfl, rfl⟩
  · exact .inr (create_fresh (Layout.rowMajor_fills shape) hw).buffer

theorem settle_inherits {zeroCopy : Bool} (h : v.settle zeroCopy s = .ok out s') :
    Inherits s v out := by
  cases zeroCopy with
  | true =>
    rw [settle, if_pos rfl, pure_eq_ok] at h
    obtain ⟨rfl, rfl⟩ := h
    exact .inl ⟨rfl, rfl⟩
  | false =>
    rw [settle, if_neg Bool.false_ne_true] at h
    exact .inr (copy_fresh h).buffer

theorem copyIdentity_inherits {zeroCopy : Bool} (h : v.copyIdentity r zeroCopy s = .ok out s') :
    Inherits s v out := by
  simp only [copyIdentity, bind_eq_ok] at h
  obtain ⟨w, s₁, hw, h⟩ := h
  have hext := ((v.reshape_yields r.finalShape s).of_ok hw).kept
  exact (reshape_inherits hw).trans hext (settle_inherits h)

theorem copyLead_inherits {zeroCopy : Bool} (h : v.copyLead r zeroCopy s = .ok out s') :
    Inherits s v out := by
  unfold copyLead at h
  cases haxes : r.axes with
  | nil =>
    rw [haxes] at h
    cases h
  | cons lead rest =>
    simp only [haxes, bind_eq_ok] at h
    obtain ⟨flat, s₁, hflat, run, s₂, hrun, h⟩ := h
    have hext := ((v.flat_yields s).of_ok hflat).kept
    have hext' := ((View.reshape_yields _ _ s₁).of_ok hrun).kept
    simp only [View.flat, guard_eq_ok] at hflat
    -- A segment is a window onto the buffer of the array.
    exact (reshape_inherits hflat.2).trans hext
      ((reshape_inherits hrun).trans hext' (settle_inherits h))

end View

namespace Config

variable {c : Config} {v out : View} {r : Resolution} {route : Route} {s s' : Store}

theorem extract_inherits (h : c.extract v r route s = .ok out s') : View.Inherits s v out := by
  by_cases hc : c.Borrowing route
  · obtain ⟨_, rfl | rfl⟩ := hc
    · exact View.copyIdentity_inherits h
    · exact View.copyLead_inherits h
  · exact .inr (extract_fresh hc h).buffer

end Config

/-! ## Sealed buffers -/

/-- If the array has its cells in the buffer, it is a read-only host array. -/
def View.Sealed (k : Nat) (v : View) : Prop :=
  v.buffer = k → v.kind = .host ∧ v.writeable = false

theorem View.Sealed.of_ne {k : Nat} {v : View} (h : v.buffer ≠ k) : v.Sealed k :=
  fun hk => absurd hk h

theorem View.Sealed.window {k : Nat} {v w : View} {items : List View.KeyItem} (hv : v.Sealed k)
    (h : v.window items = .ok w) : w.Sealed k := by
  simp only [View.window, except_bind_eq_ok, except_pure_eq_ok] at h
  obtain ⟨_, _, _, _, rfl⟩ := h
  exact hv

theorem View.Sealed.transpose {k : Nat} {v w : View} {order : List Int} (hv : v.Sealed k)
    (h : v.transpose order = .ok w) : w.Sealed k := by
  simp only [View.transpose] at h
  split_ifs at h
  · cases h
  · simp only [except_bind_eq_ok, except_pure_eq_ok] at h
    obtain ⟨_, _, rfl⟩ := h
    exact hv

/-- What can be written to is not sealed. -/
theorem View.Sealed.ne_buffer {k : Nat} {v : View} (hv : v.Sealed k)
    (h : v.kind = .host → v.writeable = true) : k ≠ v.buffer := by
  intro hk
  obtain ⟨hhost, hflag⟩ := hv hk.symm
  exact Bool.false_ne_true (hflag.symm.trans (h hhost))

theorem Backend.target_writeable {b : Backend} {o : Operand} {v : View} (h : b.target o = .ok v) :
    v ∈ o.view? ∧ (v.kind = .host → v.writeable = true) := by
  unfold Backend.target at h
  cases o with
  | value => cases h
  | array u =>
    dsimp only at h
    split_ifs at h with _ hflag
    cases h
    exact ⟨rfl, fun hhost => Decidable.of_not_not fun hw => hflag ⟨hhost, hw⟩⟩

namespace Config

variable {c : Config} {o : Operand} {spec : Value} {out : View} {w w' : Workspace} {k : Nat}

/-- A slice seals what its operand seals, unless it sees the cells as a tensor and need not copy
them. -/
theorem slice_sealed (hk : k < w.store.buffers.size) (ho : ∀ v ∈ o.view?, v.Sealed k)
    (hexposed : ¬(c.zeroCopy = true ∧ c.backend = .fixed .tensor ∧ ∃ v ∈ o.view?, v.buffer = k))
    (h : c.slice o spec w = .ok out w') : out.Sealed k := by
  intro hout
  have hyields := ((c.slice_ends w o spec).of_ok h).2
  obtain ⟨b, source, s₁, r, route, hb, hsource, _, _, hmade, _⟩ := slice_eq_ok h
  obtain ⟨v, hv, hbuffer⟩ : ∃ v ∈ o.view?, v.buffer = out.buffer := by
    rcases hyields.origin with horigin | hnew
    · exact Option.map_eq_some_iff.mp horigin
    · omega
  obtain ⟨hhost, hflag⟩ := ho v hv (hbuffer.trans hout)
  cases o with
  | value => cases hv
  | array u =>
    cases hv
    rw [Operand.toView, ofExcept_eq_ok] at hsource
    obtain ⟨hsource, rfl⟩ := hsource
    by_cases htensor : c.backend = .fixed .tensor
    · have hcopies : ¬c.Borrowing route := fun hroute =>
        hexposed ⟨hroute.1, htensor, v, rfl, hbuffer.trans hout⟩
      have hnew := (extract_fresh hcopies hmade).buffer
      omega
    · have hkind : b.kind = v.kind := by
        cases hchoice : c.backend with
        | auto =>
          rw [hchoice] at hb
          exact Backend.kind_of_choose hb
        | fixed kind =>
          rw [hchoice] at hb
          cases kind with
          | tensor => exact absurd hchoice htensor
          | host => exact (Backend.kind_of_choose hb).trans hhost.symm
      rw [hkind, v.ofKind_self] at hsource
      cases hsource
      rcases extract_inherits hmade with ⟨_, hinherit⟩ | hnew
      · exact ⟨(extract_kind hmade).trans hhost, hinherit.trans hflag⟩
      · omega

end Config

namespace Session

variable {s s₁ s' : Session} {k : Nat} {o : Operand}

/-- The named arrays with cells in the buffer are read-only host arrays. -/
structure Shielded (k : Nat) (s : Session) : Prop where
  held : k < s.workspace.store.buffers.size
  sealed : s.All fun v _ => v.Sealed k

/-- The buffer is as it was, and shielded still. -/
structure Shields (k : Nat) (s s' : Session) : Prop where
  shielded : s'.Shielded k
  spares : s.workspace.store.Spares k s'.workspace.store

namespace Shields

theorem refl (h : s.Shielded k) : Shields k s s := ⟨h, Store.Spares.refl _ k⟩

theorem trans (h : Shields k s s₁) (h' : Shields k s₁ s') : Shields k s s' :=
  ⟨h'.shielded, h.spares.trans h'.spares⟩

theorem of_named (h : s.Shielded k) (hn : s'.named = s.named)
    (hs : s.workspace.store.Spares k s'.workspace.store) : Shields k s s' := by
  refine ⟨⟨Nat.lt_of_lt_of_le h.held hs.count, fun entry hentry => ?_⟩, hs⟩
  rw [hn] at hentry
  exact h.sealed entry hentry

theorem of_keeps (h : s.Shielded k) (hs : s.Keeps s') : Shields k s s' :=
  of_named h hs.named (Store.Spares.of_extends hs.workspace.store h.held)

/-- After steps that kept the shield. -/
theorem ends {α : Type} {x : EStateM.Result Fault Session α} (h : Shields k s s₁)
    (hx : Ends x (fun _ => Shields k s₁) (Shields k s₁)) :
    Ends x (fun _ => Shields k s) (Shields k s) :=
  hx.mono (fun _ _ => h.trans) fun _ => h.trans

end Shields

namespace Shielded

/-! ## Steps -/

/-- A step that keeps everything may come first. -/
theorem bind {α β : Type} {x : Step α} {f : α → Step β} {Q : α → Session → Prop}
    (h : s.Shielded k) (hx : Ends (x s) (fun a s₁ => s.Keeps s₁ ∧ Q a s₁) s.Keeps)
    (hf : ∀ a s₁, s.Keeps s₁ → s₁.Shielded k → Q a s₁ →
      Ends (f a s₁) (fun _ => Shields k s₁) (Shields k s₁)) :
    Ends ((x >>= f) s) (fun _ => Shields k s) (Shields k s) := by
  refine (hx.mono (fun _ _ hq => hq) fun _ => Shields.of_keeps h).bind fun a s₁ hq => ?_
  have hshields := Shields.of_keeps h hq.1
  exact hshields.ends (hf a s₁ hq.1 hshields.shielded hq.2)

theorem define_ends (h : s.Shielded k) (ho : ∀ v ∈ o.view?, v.Sealed k) (name : String) :
    Ends (Step.define name o s) (fun _ => Shields k s) (Shields k s) := by
  refine (Session.define_ends h.sealed ho name _).mono (fun _ s' hs => ?_) fun _ he => he
  obtain ⟨hsealed, hworkspace⟩ := hs
  refine ⟨⟨?_, hsealed⟩, ?_⟩
  · rw [hworkspace]
    exact h.held
  · rw [hworkspace]
    exact Store.Spares.refl _ k

theorem operand_ends (h : s.Shielded k) (name : String) :
    Ends (Step.operand name s) (fun o s' => s.Keeps s' ∧ ∀ v ∈ o.view?, v.Sealed k) s.Keeps := by
  refine (Session.operand_ends h.sealed name).mono (fun o s' ho => ?_) fun _ he =>
    he ▸ Keeps.refl s
  obtain ⟨rfl, ho⟩ := ho
  exact ⟨Keeps.refl s', ho⟩

theorem array_ends (h : s.Shielded k) (name : String) :
    Ends (Step.array name s) (fun v s' => s.Keeps s' ∧ v.Sealed k) s.Keeps := by
  refine (Session.array_ends h.sealed name).mono (fun v s' hv => ?_) fun _ he =>
    he ▸ Keeps.refl s
  obtain ⟨rfl, hv⟩ := hv
  exact ⟨Keeps.refl s', hv⟩

theorem read_ends (h : s.Shielded k) (a : Argument) :
    Ends (a.read s) (fun o s' => s.Keeps s' ∧ ∀ v ∈ o.view?, v.Sealed k) s.Keeps := by
  cases a with
  | named name => exact h.operand_ends name
  | value v => exact ⟨Keeps.refl s, fun v hv => nomatch hv⟩
  | fresh a =>
    refine (Session.call_ends (Workspace.onStore_yields
      (a.make_yields s.workspace.store))).bind fun v s' hv => ?_
    obtain ⟨⟨hkept, hyields⟩, hnamed, hconfig⟩ := hv
    refine Ends.ret ⟨⟨hconfig, hnamed, hkept⟩, fun u hu => ?_⟩
    cases hu
    exact View.Sealed.of_ne (Nat.ne_of_gt (Nat.lt_of_lt_of_le h.held hyields.new_le))

/-- A call that gives a sealed array, which takes a name. -/
theorem define_call_ends (h : s.Shielded k) (name : String) {x : Call View} {kind : CallKind}
    {source : Option Nat}
    (hx : Ends (x s.workspace) (fun out w => Logs kind s.workspace w ∧
      Yields source s.workspace.store out w.store) s.workspace.Keeps)
    (hsealed : ∀ out w, x s.workspace = .ok out w → out.Sealed k) :
    Ends ((do Step.define name (.array (← Step.call x)) : Step Unit) s)
      (fun _ => Shields k s) (Shields k s) := by
  have hcall := Session.call_ends ((hx.and (Ends.of_returns hsealed)).mono (fun _ _ hq => hq)
    fun _ he => he.1)
  refine (hcall.mono (fun _ _ hq => hq) fun _ => Shields.of_keeps h).bind fun out s₁ hout => ?_
  obtain ⟨⟨⟨_, hyields⟩, hout⟩, hnamed, _⟩ := hout
  have hshields : Shields k s s₁ :=
    Shields.of_named h hnamed (Store.Spares.of_extends hyields.kept h.held)
  refine hshields.ends (hshields.shielded.define_ends (fun v hv => ?_) name)
  cases hv
  exact hout

end Shielded

/-! ## Actions -/

/-- The action is a slice that sees the cells of the buffer as a tensor and need not copy them. -/
def Exposes (k : Nat) (s : Session) : Action → Prop
  | .call (.slice _ array _) => s.config.zeroCopy = true ∧ s.config.backend = .fixed .tensor ∧
      ∃ v s', array.read s = .ok (.array v) s' ∧ v.buffer = k
  | _ => False

namespace Shielded

theorem slice_ends (h : s.Shielded k) {name : String} {array : Argument} {spec : Value}
    (hexposed : ¬s.Exposes k (.call (.slice name array spec))) :
    Ends ((EngineCall.slice name array spec).run s) (fun _ => Shields k s) (Shields k s) := by
  have hread : Ends (array.read s) (fun o s₁ => s.Keeps s₁ ∧
      (∀ v ∈ o.view?, v.Sealed k) ∧ array.read s = .ok o s₁) s.Keeps :=
    ((h.read_ends array).and (Ends.of_returns fun _ _ ho => ho)).mono
      (fun _ _ ho => ⟨ho.1.1, ho.1.2, ho.2⟩) fun _ he => he.1
  refine h.bind hread fun o s₁ hkept hshielded ho => ?_
  obtain ⟨hsealed, hrun⟩ := ho
  have hcopies : ¬(s₁.config.zeroCopy = true ∧ s₁.config.backend = .fixed .tensor ∧
      ∃ v ∈ o.view?, v.buffer = k) := by
    rintro ⟨hzero, htensor, v, hv, hk⟩
    rw [hkept.config] at hzero htensor
    cases o with
    | value => cases hv
    | array u =>
      cases hv
      exact hexposed ⟨hzero, htensor, v, s₁, hrun, hk⟩
  exact hshielded.define_call_ends name (s₁.config.slice_ends s₁.workspace o spec) fun _ _ =>
    Config.slice_sealed hshielded.held hsealed hcopies

theorem grad_ends (h : s.Shielded k) (name : String) (shape : Argument) (spec : Value)
    (dy : Argument) :
    Ends ((EngineCall.grad name shape spec dy).run s) (fun _ => Shields k s) (Shields k s) := by
  refine h.bind (h.read_ends shape) fun shape s₁ _ h₁ _ => ?_
  refine h₁.bind (h₁.read_ends dy) fun dy s₂ _ h₂ _ => ?_
  have hgrad := s₂.config.grad_ends s₂.workspace shape spec dy
  refine h₂.define_call_ends name hgrad fun out w hout => ?_
  have hnew := (hgrad.of_ok hout).2.new_le
  exact View.Sealed.of_ne (Nat.ne_of_gt (Nat.lt_of_lt_of_le h₂.held hnew))

theorem assign_ends (h : s.Shielded k) (name : String) (spec : Value) (value : Argument) :
    Ends ((EngineCall.assign name spec value).run s) (fun _ => Shields k s) (Shields k s) := by
  refine h.bind (h.read_ends value) fun value s₁ _ h₁ _ => ?_
  refine h₁.bind (h₁.operand_ends name) fun target s₂ _ h₂ htarget => ?_
  refine (Ends.read_bind (Session.call_ends
    (s₂.config.assign_ends s₂.workspace target spec value))).mono (fun _ s' hs => ?_)
    fun _ => Shields.of_keeps h₂
  obtain ⟨⟨_, b, ref, href, hwritten⟩, hnamed, _⟩ := hs
  obtain ⟨hmem, hwriteable⟩ := Backend.target_writeable href
  exact Shields.of_named h₂ hnamed
    (Store.Spares.of_written hwritten h₂.held ((htarget ref hmem).ne_buffer hwriteable))

theorem set_ends (h : s.Shielded k) (name : String) (place : List Int) (value : Value) :
    Ends (Step.setElement name place value s) (fun _ => Shields k s) (Shields k s) := by
  refine h.bind (h.array_ends name) fun v s₁ _ h₁ hv => ?_
  have hset : Ends (Workspace.onStore (v.setElement place value) s₁.workspace)
      (fun _ w => s₁.workspace.store.Spares k w.store) s₁.workspace.Keeps :=
    Ends.onStore ((v.setElement_ends place value s₁.workspace.store).mono
      (fun _ _ hs => Store.Spares.of_written hs.2 h₁.held (hv.ne_buffer hs.1))
      fun t ht => ht ▸ Workspace.Keeps.refl s₁.workspace)
  exact (Session.call_ends hset).mono (fun _ _ hs => Shields.of_named h₁ hs.2.1 hs.1)
    fun _ => Shields.of_keeps h₁

/-- An action that does not expose the cells of the buffer leaves them as they were. -/
theorem action_ends (h : s.Shielded k) {a : Action} (hexposed : ¬s.Exposes k a) :
    Ends (a.run s) (fun _ => Shields k s) (Shields k s) := by
  cases a with
  | engine c => exact Shields.of_named h rfl (Store.Spares.refl _ k)
  | create name a => exact h.bind (h.read_ends a) fun o s₁ _ h₁ ho => h₁.define_ends ho name
  | view name source key =>
    refine h.bind (h.array_ends source) fun v s₁ _ h₁ hv => ?_
    refine Ends.read_bind (Ends.lift_bind (Shields.refl h₁) fun o ho => h₁.define_ends ?_ name)
    intro w hw
    obtain ⟨items, hitems⟩ := View.index_window ho hw
    exact hv.window hitems
  | transpose name source order =>
    refine h.bind (h.array_ends source) fun v s₁ _ h₁ hv => ?_
    refine Ends.lift_bind (Shields.refl h₁) fun w hw => h₁.define_ends ?_ name
    intro u hu
    cases hu
    exact hv.transpose hw
  | set name place value => exact h.set_ends name place value
  | call c =>
    cases c with
    | resolve shape spec =>
      have hcall := Session.call_ends (s.config.resolve_ends s.workspace shape spec)
      refine ((Ends.read_bind hcall).mono (fun _ _ hq => hq) fun _ => Shields.of_keeps h).bind
        fun r s₁ hr => Ends.ret ?_
      exact Shields.of_named h hr.2.1 (hr.1.2 ▸ Store.Spares.refl _ k)
    | slice name array spec => exact h.slice_ends hexposed
    | grad name shape spec dy => exact h.grad_ends name shape spec dy
    | assign name spec value => exact h.assign_ends name spec value

theorem after_shields (h : s.Shielded k) {a : Action} (hexposed : ¬s.Exposes k a) :
    Shields k s (s.after a) := by
  have hends := h.action_ends hexposed
  unfold after
  cases hx : a.run s with
  | ok u s' => exact hends.of_ok hx
  | error e s' => exact hends.of_error hx

end Shielded

/-- None of the actions, one after the other, exposes the cells of the buffer. -/
def Discreet (k : Nat) : Session → List Action → Prop
  | _, [] => True
  | s, a :: actions => ¬s.Exposes k a ∧ Discreet k (s.after a) actions

theorem Shielded.run_shields (h : s.Shielded k) {actions : List Action}
    (hd : Discreet k s actions) : Shields k s (actions.foldl after s) := by
  induction actions generalizing s with
  | nil => exact Shields.refl h
  | cons a actions ih =>
    obtain ⟨hexposed, hd⟩ := hd
    have hstep := h.after_shields hexposed
    exact hstep.trans (ih hstep.shielded hd)

/-- The new array in a buffer. -/
def NewArray.view (a : NewArray) (buffer : Nat) : View where
  kind := a.kind
  type := a.type
  buffer := buffer
  layout := a.layout
  writeable := a.writeable
  tracking := a.tracking

theorem NewArray.make_eq (a : NewArray) (t : Store) : a.make t =
    .ok (a.view t.buffers.size)
      ((t.grow a.layout.size).scatter t.buffers.size a.layout.places a.codes) := rfl

/-- A new read-only host array shields its buffer. -/
theorem create_shielded (hs : s.Sound) (name : String) {a : NewArray} (hkind : a.kind = .host)
    (hflag : a.writeable = false) {v : View}
    (hv : (s.after (.create name (.fresh a))).find? name = .ok (.array v)) :
    v.kind = .host ∧ v.writeable = false ∧
      (s.after (.create name (.fresh a))).Shielded v.buffer := by
  have hyields := (a.make_yields s.workspace.store).of_ok (a.make_eq s.workspace.store)
  have hnamed : (s.after (.create name (.fresh a))).named =
      (name, .array (a.view s.workspace.store.buffers.size)) :: s.named.filter (·.1 != name) := rfl
  obtain rfl : v = a.view s.workspace.store.buffers.size := by
    rw [find?, hnamed, List.lookup_cons_self] at hv
    cases hv
    rfl
  refine ⟨hkind, hflag, hyields.lt_count fun _ hb => (nomatch hb), fun entry hentry w hw => ?_⟩
  rw [hnamed] at hentry
  rcases List.mem_cons.mp hentry with rfl | hentry
  · cases hw
    exact fun _ => ⟨hkind, hflag⟩
  · have hold := sound_iff.mp hs entry (List.mem_of_mem_filter hentry) w hw
    exact View.Sealed.of_ne (Nat.ne_of_lt hold)

/-- A read-only host array keeps its elements, whatever else is done in a session, as long as no
slice that need not copy sees its cells as a tensor. -/
theorem read_only_kept {limit : Nat} {history actions : List Action} {name : String}
    {a : NewArray} {v : View}
    (hkind : a.kind = .host) (hflag : a.writeable = false)
    (hv : (reached limit (history ++ [.create name (.fresh a)])).find? name = .ok (.array v))
    (hd : Discreet v.buffer (reached limit (history ++ [.create name (.fresh a)])) actions) :
    v.kind = .host ∧ v.writeable = false ∧
      v.codes (reached limit (history ++ [.create name (.fresh a)] ++ actions)).workspace.store =
        v.codes (reached limit (history ++ [.create name (.fresh a)])).workspace.store := by
  have hcreate : reached limit (history ++ [.create name (.fresh a)]) =
      (reached limit history).after (.create name (.fresh a)) := List.foldl_append
  rw [hcreate] at hv hd
  obtain ⟨hhost, hreadonly, hshielded⟩ :=
    create_shielded (reached_sound limit history) name hkind hflag hv
  refine ⟨hhost, hreadonly, ?_⟩
  have hrun : reached limit (history ++ [.create name (.fresh a)] ++ actions) =
      actions.foldl after ((reached limit history).after (.create name (.fresh a))) := by
    rw [← hcreate]
    exact List.foldl_append
  rw [hrun, hcreate]
  exact (hshielded.run_shields hd).spares.codes

end Session

namespace Sample

open Session (reached)

def readOnlyRow : Session.NewArray :=
  { kind := .host, type := .int64, layout := .rowMajor [4], codes := [0, 1, 2, 3]
    writeable := false }

/-- A read-only row under an engine. -/
def readOnlyUnder (c : Config) : List Session.Action :=
  [.engine c, .create "row" (.fresh readOnlyRow)]

/-- The assignment of other elements to the whole of an array. -/
def overwrite (name : String) : Session.Action :=
  .call (.assign name (.masks {})
    (.fresh { kind := .host, type := .int64, layout := .rowMajor [4], codes := [7, 8, 9, 10] }))

/-- A window onto the row, which cannot be assigned to, and a tensor copied from it, which can. -/
def windowAndCopy : List Session.Action := [
  .call (.slice "window" (.named "row") (.masks {})), overwrite "window",
  .engine { backend := .fixed .tensor },
  .call (.slice "copy" (.named "row") (.masks {})), overwrite "copy"]

theorem read_only_kept_window : ∃ v w,
    (reached 1024 (readOnlyUnder { zeroCopy := true })).find? "row" = .ok (.array v) ∧
    v.codes (reached 1024 (readOnlyUnder { zeroCopy := true } ++ windowAndCopy)).workspace.store =
      [0, 1, 2, 3] ∧
    (reached 1024 (readOnlyUnder { zeroCopy := true } ++ windowAndCopy)).find? "copy" =
      .ok (.array w) ∧
    w.codes (reached 1024 (readOnlyUnder { zeroCopy := true } ++ windowAndCopy)).workspace.store =
      [7, 8, 9, 10] := by
  have hfound : ∃ v, (reached 1024 (readOnlyUnder { zeroCopy := true })).find? "row" =
      .ok (.array v) ∧
      v.codes (reached 1024 (readOnlyUnder { zeroCopy := true })).workspace.store = [0, 1, 2, 3] :=
    ⟨_, rfl, rfl⟩
  obtain ⟨v, hv, hcodes⟩ := hfound
  obtain ⟨_, _, hkept⟩ := @Session.read_only_kept 1024 [.engine { zeroCopy := true }] windowAndCopy
    "row" readOnlyRow v rfl rfl hv
    ⟨fun h => absurd h.2.1 (by decide), id, id, fun h => absurd h.1 (by decide), id, trivial⟩
  exact ⟨v, _, hv, hkept.trans hcodes, rfl, rfl⟩

/-- A slice that need not copy gives a tensor with the cells of the row, and through the tensor they
are written. -/
theorem read_only_overwritten : ∃ v,
    (reached 1024 (readOnlyUnder { backend := .fixed .tensor, zeroCopy := true })).find? "row" =
      .ok (.array v) ∧
    v.kind = .host ∧ v.writeable = false ∧
    v.codes
      (reached 1024 (readOnlyUnder { backend := .fixed .tensor, zeroCopy := true })).workspace.store =
      [0, 1, 2, 3] ∧
    v.codes (reached 1024 (readOnlyUnder { backend := .fixed .tensor, zeroCopy := true } ++
      [.call (.slice "tensor" (.named "row") (.masks {})), overwrite "tensor"])).workspace.store =
      [7, 8, 9, 10] :=
  ⟨_, rfl, rfl, rfl, rfl, rfl⟩

end Sample

end Hyperslab
