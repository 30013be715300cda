import Hyperslab.Proofs.Atomic
import Hyperslab.Session

/-!
# Sessions of any length

A session is reached by a list of actions, each of which may fail.  Whatever they
were, every named array has a buffer, so a call that fails leaves each of them with
the elements it had.
-/

namespace Hyperslab

open Store (Extends)
open Workspace (Logs)

/-! ## Arrays named by other arrays -/

namespace View

variable {v w : View} {s : Store}

theorem window_buffer {items : List KeyItem} (h : v.window items = .ok w) :
    w.buffer = v.buffer := by
  simp only [window, except_bind_eq_ok, except_pure_eq_ok] at h
  obtain ⟨_, _, _, _, rfl⟩ := h
  rfl

/-- The array that an index finds is a window. -/
theorem index_window {key : Value} {o : Operand} (h : v.index s key = .ok o)
    (hw : w ∈ o.view?) : ∃ items, v.window items = .ok w := by
  simp only [index, except_bind_eq_ok] at h
  obtain ⟨items, _, u, hu, h⟩ := h
  split_ifs at h
  · cases h
    cases hw
  · cases h
    cases hw
    exact ⟨items, hu⟩

theorem transpose_buffer {order : List Int} (h : v.transpose order = .ok w) :
    w.buffer = v.buffer := by
  simp only [transpose] at h
  split_ifs at h
  · cases h
  · simp only [except_bind_eq_ok, except_pure_eq_ok] at h
    obtain ⟨_, _, rfl⟩ := h
    rfl

/-- Setting elements writes to the buffer of the array, which must be writeable, and to no other. -/
theorem setElement_ends (v : View) (place : List Int) (value : Value) (s : Store) :
    Ends (v.setElement place value s)
      (fun _ s' => (v.kind = .host → v.writeable = true) ∧ s.Written v.buffer s') (· = s) := by
  have hfill : ∀ (w : View) (codes : List Int), v.window (place.map .point) = .ok w →
      s.Written v.buffer (w.fill codes s) := fun w codes hw =>
    ⟨s, w.places, codes, Extends.refl s, window_buffer hw ▸ rfl⟩
  unfold setElement
  dsimp only
  cases hk : v.kind with
  | host =>
    refine Ends.check rfl fun hwriteable => Ends.lift_bind rfl fun w hw =>
      Ends.lift_bind rfl fun l _ => ?_
    cases l.spread? w.shape with
    | some codes => exact ⟨fun _ => by simpa using hwriteable, hfill w codes hw⟩
    | none => exact Ends.fault rfl
  | tensor =>
    refine Ends.lift_bind rfl fun l _ => Ends.lift_bind rfl fun w hw => Ends.check rfl fun _ => ?_
    cases l.spread? w.shape with
    | some codes => exact ⟨fun hhost => absurd hhost (by decide), hfill w codes hw⟩
    | none => exact Ends.fault rfl

end View

namespace Session

/-! ## What is done in a session -/

/-- A new array. -/
structure NewArray where
  kind : ArrayKind
  type : ElementType
  layout : Layout
  codes : List Int
  writeable : Bool := true
  tracking : Tracking := .untracked

def NewArray.make (a : NewArray) : Memory View := do
  let v ← View.create a.kind a.type a.layout a.codes
  return { v with writeable := a.writeable, tracking := a.tracking }

theorem NewArray.make_yields (a : NewArray) (s : Store) :
    Ends (a.make s) (Yields none s) (Extends s) :=
  (View.create_yields a.kind a.type a.layout a.codes s).bind fun _ _ h => Ends.ret (h.of_buffer rfl)

/-- What is handed to a call: what a name stands for, a value, or a new array that has no name. -/
inductive Argument where
  | named (name : String)
  | value (v : Value)
  | fresh (a : NewArray)

def Argument.read : Argument → Step Operand
  | named name => Step.operand name
  | value v => return .value v
  | fresh a => return .array (← Step.onStore a.make)

inductive EngineCall where
  | resolve (shape spec : Value)
  | slice (name : String) (array : Argument) (spec : Value)
  | grad (name : String) (shape : Argument) (spec : Value) (dy : Argument)
  | assign (name : String) (spec : Value) (value : Argument)

namespace EngineCall

def kind : EngineCall → CallKind
  | resolve .. => .resolve
  | slice .. => .slice
  | grad .. => .grad
  | assign .. => .assign

def run : EngineCall → Step Unit
  | resolve shape spec => do let _ ← Step.resolve shape spec
  | slice name array spec => do Step.slice name (← array.read) spec
  | grad name shape spec dy => do
    let shape ← shape.read
    let dy ← dy.read
    Step.grad name shape spec dy
  | assign name spec value => do Step.assign name spec (← value.read)

end EngineCall

inductive Action where
  | engine (c : Config)
  | create (name : String) (a : Argument)
  | view (name source : String) (key : Value)
  | transpose (name source : String) (order : List Int)
  | set (name : String) (place : List Int) (value : Value)
  | call (c : EngineCall)

def Action.run : Action → Step Unit
  | engine c => Step.replaceEngine c
  | create name a => do Step.define name (← a.read)
  | view name source key => Step.view name source key
  | transpose name source order => Step.transpose name source order
  | set name place value => Step.setElement name place value
  | call c => c.run

/-- The session after an action.  One that fails leaves it as it was when the fault arose. -/
def after (s : Session) (a : Action) : Session :=
  match a.run s with
  | .ok _ s' => s'
  | .error _ s' => s'

/-- The session after a list of actions, from an empty one on, where an array takes `limit` bytes at
most. -/
def reached (limit : Nat) (history : List Action) : Session :=
  history.foldl after { workspace := { store := { limit } } }

/-! ## What holds of every named array -/

variable {s s₁ s' : Session} {name : String} {o : Operand} {v : View}
variable {Good : View → Store → Prop} {Lawful : NewArray → Prop}

/-- The buffer of an operand, if it is an array, is one of the store. -/
def Held (o : Operand) (s : Session) : Prop :=
  ∀ b ∈ o.buffer?, b < s.workspace.store.buffers.size

def Sound (s : Session) : Prop := ∀ entry ∈ s.named, Held entry.2 s

/-- Every named array has a property. -/
def All (Good : View → Store → Prop) (s : Session) : Prop :=
  ∀ entry ∈ s.named, ∀ v ∈ entry.2.view?, Good v s.workspace.store

theorem sound_iff : s.Sound ↔ s.All fun v t => v.buffer < t.buffers.size := by
  have hheld : ∀ o : Operand,
      Held o s ↔ ∀ v ∈ o.view?, v.buffer < s.workspace.store.buffers.size := by
    intro o
    cases o with
    | array v => simp [Held, Operand.buffer?, Operand.view?]
    | value v => simp [Held, Operand.buffer?, Operand.view?]
  simp only [Sound, All, hheld]

/-- A property that an array keeps as long as it has its cells, and that new arrays, windows onto
arrays and the results of calls have. -/
structure Invariant (Good : View → Store → Prop) (Lawful : NewArray → Prop) : Prop where
  later {v : View} {s s' : Store} : s.Covers s' → Good v s → Good v s'
  make {a : NewArray} {v : View} {s s' : Store} : Lawful a → a.make s = .ok v s' → Good v s'
  window {v w : View} {s : Store} {items : List View.KeyItem} :
    Good v s → v.window items = .ok w → Good w s
  transpose {v w : View} {s : Store} {order : List Int} :
    Good v s → v.transpose order = .ok w → Good w s
  slice {c : Config} {o : Operand} {spec : Value} {out : View} {w w' : Workspace} :
    (∀ v ∈ o.view?, Good v w.store) → c.slice o spec w = .ok out w' → Good out w'.store
  grad {c : Config} {shape : Operand} {spec : Value} {dy : Operand} {out : View}
    {w w' : Workspace} :
    (∀ v ∈ dy.view?, Good v w.store) → c.grad shape spec dy w = .ok out w' → Good out w'.store

/-- The new array that an argument may be is a lawful one. -/
def Argument.Fit (Lawful : NewArray → Prop) : Argument → Prop
  | fresh a => Lawful a
  | named _ | value _ => True

def EngineCall.Fit (Lawful : NewArray → Prop) : EngineCall → Prop
  | resolve .. => True
  | slice _ array _ => array.Fit Lawful
  | grad _ shape _ dy => shape.Fit Lawful ∧ dy.Fit Lawful
  | assign _ _ value => value.Fit Lawful

def Action.Fit (Lawful : NewArray → Prop) : Action → Prop
  | create _ a => a.Fit Lawful
  | call c => c.Fit Lawful
  | engine _ | view .. | transpose .. | set .. => True

theorem Argument.fit_true (a : Argument) : a.Fit fun _ => True := by
  cases a <;> trivial

theorem EngineCall.fit_true (c : EngineCall) : c.Fit fun _ => True := by
  cases c with
  | resolve => trivial
  | slice _ array _ => exact array.fit_true
  | grad _ shape _ dy => exact ⟨shape.fit_true, dy.fit_true⟩
  | assign _ _ value => exact value.fit_true

theorem Action.fit_true (a : Action) : a.Fit fun _ => True := by
  cases a with
  | create _ a => exact a.fit_true
  | call c => exact c.fit_true
  | _ => trivial

/-- Configuration, log, names and every cell are as they were. -/
structure Keeps (s s' : Session) : Prop where
  config : s'.config = s.config
  named : s'.named = s.named
  workspace : s.workspace.Keeps s'.workspace

theorem Keeps.refl (s : Session) : s.Keeps s := ⟨rfl, rfl, Workspace.Keeps.refl s.workspace⟩

theorem Keeps.trans (h : s.Keeps s₁) (h' : s₁.Keeps s') : s.Keeps s' where
  config := h'.config.trans h.config
  named := h'.named.trans h.named
  workspace := ⟨h.workspace.store.trans h'.workspace.store,
    h'.workspace.log.trans h.workspace.log⟩

theorem Keeps.covers (h : s.Keeps s') : s.workspace.store.Covers s'.workspace.store :=
  h.workspace.store.covers

theorem Keeps.ends {α : Type} {x : EStateM.Result Fault Session α} {Q : α → Session → Prop}
    (h : s.Keeps s₁) (hx : Ends x Q s₁.Keeps) : Ends x Q s.Keeps :=
  hx.mono (fun _ _ hq => hq) fun _ he => h.trans he

theorem All.of_find (h : s.All Good) (ho : s.find? name = .ok o) :
    ∀ v ∈ o.view?, Good v s.workspace.store := by
  unfold find? at ho
  cases hl : s.named.lookup name with
  | none =>
    rw [hl] at ho
    cases ho
  | some found =>
    rw [hl] at ho
    cases ho
    obtain ⟨before, rest, hnamed, _⟩ := List.lookup_eq_some_iff.mp hl
    refine h (name, o) ?_
    rw [hnamed]
    exact List.mem_append_right _ List.mem_cons_self

theorem define_ends (h : s.All Good) (ho : ∀ v ∈ o.view?, Good v s.workspace.store)
    (name : String) (E : Session → Prop) :
    Ends (Step.define name o s) (fun _ s' => s'.All Good ∧ s'.workspace = s.workspace) E := by
  refine ⟨fun entry hentry => ?_, rfl⟩
  rcases List.mem_cons.mp hentry with rfl | hentry
  · exact ho
  · exact h entry (List.mem_of_mem_filter hentry)

namespace Invariant

theorem all_later (hI : Invariant Good Lawful) (h : s.All Good) (hn : s'.named = s.named)
    (hs : s.workspace.store.Covers s'.workspace.store) : s'.All Good := by
  intro entry hentry v hv
  rw [hn] at hentry
  exact hI.later hs (h entry hentry v hv)

theorem all_keeps (hI : Invariant Good Lawful) (h : s.All Good) (hk : s.Keeps s') : s'.All Good :=
  hI.all_later h hk.named hk.covers

end Invariant

/-! ## Steps -/

theorem operand_ends (h : s.All Good) (name : String) :
    Ends (Step.operand name s)
      (fun o s' => s' = s ∧ ∀ v ∈ o.view?, Good v s.workspace.store) (· = s) := by
  unfold Step.operand
  exact Ends.read_bind (Ends.lift rfl fun o ho => ⟨rfl, h.of_find ho⟩)

theorem array_ends (h : s.All Good) (name : String) :
    Ends (Step.array name s) (fun v s' => s' = s ∧ Good v s.workspace.store) (· = s) := by
  unfold Step.array
  refine (operand_ends h name).bind fun o s₁ ho => ?_
  obtain ⟨rfl, ho⟩ := ho
  cases o with
  | array v => exact Ends.ret ⟨rfl, ho v rfl⟩
  | value v => exact Ends.fault rfl

theorem call_ends {α : Type} {x : Call α} {Q : α → Workspace → Prop}
    (h : Ends (x s.workspace) Q s.workspace.Keeps) :
    Ends (Step.call x s)
      (fun a s' => Q a s'.workspace ∧ s'.named = s.named ∧ s'.config = s.config) s.Keeps := by
  unfold Step.call
  cases hx : x s.workspace with
  | ok a w => exact ⟨h.of_ok hx, rfl, rfl⟩
  | error e w => exact ⟨rfl, rfl, h.of_error hx⟩

theorem Argument.read_ends (hI : Invariant Good Lawful) (h : s.All Good) {a : Argument}
    (ha : a.Fit Lawful) :
    Ends (a.read s) (fun o s' => s.Keeps s' ∧ ∀ v ∈ o.view?, Good v s'.workspace.store)
      s.Keeps := by
  cases a with
  | named name =>
    refine (operand_ends h name).mono (fun o s' ho => ?_) fun s' hs => ?_
    · obtain ⟨rfl, ho⟩ := ho
      exact ⟨Keeps.refl s', ho⟩
    · rw [hs]
      exact Keeps.refl s
  | value v => exact ⟨Keeps.refl s, fun v hv => nomatch hv⟩
  | fresh a =>
    have hgood : Ends (a.make s.workspace.store) Good fun _ => True :=
      Ends.of_returns fun v t hv => hI.make ha hv
    have hnew : Ends (Workspace.onStore a.make s.workspace)
        (fun v w => s.workspace.Keeps w ∧ Good v w.store) s.workspace.Keeps :=
      Ends.onStore (((a.make_yields s.workspace.store).and hgood).mono
        (fun v t hv => ⟨⟨hv.1.kept, rfl⟩, hv.2⟩) fun t ht => ⟨ht.1, rfl⟩)
    refine (call_ends hnew).bind fun v s' hv => ?_
    obtain ⟨⟨hkept, hv⟩, hnamed, hconfig⟩ := hv
    refine Ends.ret ⟨⟨hconfig, hnamed, hkept⟩, fun u hu => ?_⟩
    cases hu
    exact hv

/-- A call that gives an array, which takes a name. -/
theorem define_call_ends (hI : Invariant Good Lawful) {x : Call View} {kind : CallKind}
    {source : Option Nat} (h : s.All Good) (name : String)
    (hx : Ends (x s.workspace) (fun out w => Logs kind s.workspace w ∧
      Yields source s.workspace.store out w.store) s.workspace.Keeps)
    (hgood : ∀ out w, x s.workspace = .ok out w → Good out w.store) :
    Ends ((do Step.define name (.array (← Step.call x)) : Step Unit) s)
      (fun _ s' => Logs kind s.workspace s'.workspace ∧ s'.All Good) s.Keeps := by
  refine (call_ends ((hx.and (Ends.of_returns hgood)).mono (fun _ _ hq => hq)
    fun _ he => he.1)).bind fun out s₁ hout => ?_
  obtain ⟨⟨⟨hlogs, hyields⟩, hout⟩, hnamed, _⟩ := hout
  have hall : s₁.All Good := hI.all_later h hnamed hyields.kept.covers
  have hnew : ∀ v ∈ (Operand.array out).view?, Good v s₁.workspace.store := by
    intro v hv
    cases hv
    exact hout
  refine (define_ends hall hnew name _).mono (fun _ s' hs => ?_) fun _ he => he
  rw [hs.2]
  exact ⟨hlogs, hs.1⟩

/-- Reading the arguments has changed nothing, so a call after it may be taken by itself. -/
theorem Keeps.logs_ends {x : EStateM.Result Fault Session Unit} {kind : CallKind}
    (h : s.Keeps s₁)
    (hx : Ends x (fun _ s' => Logs kind s₁.workspace s'.workspace ∧ s'.All Good) s₁.Keeps) :
    Ends x (fun _ s' => Logs kind s.workspace s'.workspace ∧ s'.All Good) s.Keeps :=
  h.ends (hx.mono (fun _ _ hs => ⟨h.workspace.grows.logs hs.1, hs.2⟩) fun _ he => he)

/-- A call adds an entry to the log, or it keeps everything. -/
theorem Invariant.call_ends (hI : Invariant Good Lawful) (h : s.All Good) {c : EngineCall}
    (hc : c.Fit Lawful) :
    Ends (c.run s) (fun _ s' => Logs c.kind s.workspace s'.workspace ∧ s'.All Good) s.Keeps := by
  cases c with
  | resolve shape spec =>
    refine (Ends.read_bind (Session.call_ends
      (s.config.resolve_ends s.workspace shape spec))).bind fun r s₁ hr => ?_
    obtain ⟨⟨hlogs, hstore⟩, hnamed, _⟩ := hr
    exact Ends.ret ⟨hlogs, hI.all_later h hnamed (hstore ▸ Store.Covers.refl _)⟩
  | slice name array spec =>
    refine (array.read_ends hI h hc).bind fun o s₁ ho => ?_
    obtain ⟨hkept, ho⟩ := ho
    exact hkept.logs_ends (define_call_ends hI (hI.all_keeps h hkept) name
      (s₁.config.slice_ends s₁.workspace o spec) fun _ _ hout => hI.slice ho hout)
  | grad name shape spec dy =>
    refine (shape.read_ends hI h hc.1).bind fun shape s₁ hshape => ?_
    refine (hshape.1.ends (dy.read_ends hI (hI.all_keeps h hshape.1) hc.2)).bind
      fun dy s₂ hdy => ?_
    have hkept := hshape.1.trans hdy.1
    exact hkept.logs_ends (define_call_ends hI (hI.all_keeps h hkept) name
      (s₂.config.grad_ends s₂.workspace shape spec dy) fun _ _ hout => hI.grad hdy.2 hout)
  | assign name spec value =>
    refine (value.read_ends hI h hc).bind fun value s₁ hvalue => ?_
    obtain ⟨hkept, _⟩ := hvalue
    have hall := hI.all_keeps h hkept
    refine hkept.logs_ends (((operand_ends hall name).mono (fun _ _ h => h) fun _ he =>
      he ▸ Keeps.refl s₁).bind fun target s₂ htarget => ?_)
    obtain ⟨rfl, _⟩ := htarget
    refine (Ends.read_bind (Session.call_ends
      (s₂.config.assign_ends s₂.workspace target spec value))).mono (fun _ s' hs => ?_)
      fun _ he => he
    obtain ⟨⟨hlogs, _, _, _, hwritten⟩, hnamed, _⟩ := hs
    exact ⟨hlogs, hI.all_later hall hnamed hwritten.covers⟩

/-! ## Histories -/

theorem Invariant.action_ends (hI : Invariant Good Lawful) (h : s.All Good) {a : Action}
    (ha : a.Fit Lawful) : Ends (a.run s) (fun _ s' => s'.All Good) (·.All Good) := by
  have hsame : ∀ s', s' = s → s'.All Good := fun s' he => he ▸ h
  cases a with
  | engine c => exact h
  | create name a =>
    refine ((a.read_ends hI h ha).mono (fun _ _ ho => ho) fun _ he => hI.all_keeps h he).bind
      fun o s₁ ho => ?_
    exact (define_ends (hI.all_keeps h ho.1) ho.2 name _).mono (fun _ _ hs => hs.1) fun _ he => he
  | view name source key =>
    refine ((array_ends h source).mono (fun _ _ hv => hv) hsame).bind fun v s₁ hv => ?_
    obtain ⟨rfl, hv⟩ := hv
    refine Ends.read_bind (Ends.lift_bind h fun o ho => ?_)
    have hgood : ∀ w ∈ o.view?, Good w s₁.workspace.store := by
      intro w hw
      obtain ⟨items, hitems⟩ := View.index_window ho hw
      exact hI.window hv hitems
    exact (define_ends h hgood name _).mono (fun _ _ hs => hs.1) fun _ he => he
  | transpose name source order =>
    refine ((array_ends h source).mono (fun _ _ hv => hv) hsame).bind fun v s₁ hv => ?_
    obtain ⟨rfl, hv⟩ := hv
    refine Ends.lift_bind h fun w hw => ?_
    have hgood : ∀ u ∈ (Operand.array w).view?, Good u s₁.workspace.store := by
      intro u hu
      cases hu
      exact hI.transpose hv hw
    exact (define_ends h hgood name _).mono (fun _ _ hs => hs.1) fun _ he => he
  | set name place value =>
    refine ((array_ends h name).mono (fun _ _ hv => hv) hsame).bind fun v s₁ hv => ?_
    obtain ⟨rfl, _⟩ := hv
    have hset : Ends (Workspace.onStore (v.setElement place value) s₁.workspace)
        (fun _ w => s₁.workspace.store.Covers w.store) s₁.workspace.Keeps :=
      Ends.onStore ((v.setElement_ends place value s₁.workspace.store).mono
        (fun _ _ h => h.2.covers) fun t ht => ht ▸ Workspace.Keeps.refl s₁.workspace)
    exact (Session.call_ends hset).mono (fun _ _ hs => hI.all_later h hs.2.1 hs.1)
      fun _ he => hI.all_keeps h he
  | call c =>
    exact (hI.call_ends h ha).mono (fun _ _ hs => hs.2) fun _ he => hI.all_keeps h he

theorem Invariant.after_all (hI : Invariant Good Lawful) (h : s.All Good) {a : Action}
    (ha : a.Fit Lawful) : (s.after a).All Good := by
  have hends := hI.action_ends h ha
  unfold after
  cases hx : a.run s with
  | ok u s' => exact hends.of_ok hx
  | error e s' => exact hends.of_error hx

/-- Every named array has the property, whatever was done. -/
theorem Invariant.reached_all (hI : Invariant Good Lawful) (limit : Nat) {history : List Action}
    (hh : ∀ a ∈ history, a.Fit Lawful) : (reached limit history).All Good := by
  have hfold : ∀ s : Session, s.All Good → (history.foldl after s).All Good := by
    induction history with
    | nil => exact fun s h => h
    | cons a history ih =>
      intro s h
      obtain ⟨ha, hh⟩ := List.forall_mem_cons.mp hh
      exact ih hh (s.after a) (hI.after_all h ha)
  exact hfold _ fun _ hentry => nomatch hentry

/-! ## Every named array has a buffer -/

theorem held_invariant :
    Invariant (fun v s => v.buffer < s.buffers.size) fun _ => True where
  later h hv := Nat.lt_of_lt_of_le hv h.count
  make {a v s s'} _ h := ((a.make_yields s).of_ok h).lt_count fun _ hb => nomatch hb
  window hv h := View.window_buffer h ▸ hv
  transpose hv h := View.transpose_buffer h ▸ hv
  slice {c o spec out w w'} ho h := by
    refine ((c.slice_ends w o spec).of_ok h).2.lt_count fun b hb => ?_
    obtain ⟨v, hv, rfl⟩ := Option.map_eq_some_iff.mp hb
    exact ho v hv
  grad {c shape spec dy out w w'} _ h :=
    ((c.grad_ends w shape spec dy).of_ok h).2.lt_count fun _ hb => nomatch hb

/-- A call adds an entry to the log, or it keeps everything. -/
theorem EngineCall.run_ends (h : s.Sound) (c : EngineCall) :
    Ends (c.run s) (fun _ s' => Logs c.kind s.workspace s'.workspace ∧ s'.Sound) s.Keeps :=
  (held_invariant.call_ends (sound_iff.mp h) c.fit_true).mono
    (fun _ _ hs => ⟨hs.1, sound_iff.mpr hs.2⟩) fun _ he => he

theorem reached_sound (limit : Nat) (history : List Action) : (reached limit history).Sound :=
  sound_iff.mpr (held_invariant.reached_all limit fun a _ => a.fit_true)

/-- A call in a session that fails keeps the log, the names and every cell; one that returns has
added one entry to the log, at its end. -/
theorem call_atomic (limit : Nat) (history : List Action) (c : EngineCall) :
    (∀ e s', c.run (reached limit history) = .error e s' →
      s'.config = (reached limit history).config ∧
      s'.workspace.log = (reached limit history).workspace.log ∧
      s'.named = (reached limit history).named ∧
      (∀ b < (reached limit history).workspace.store.buffers.size,
        s'.workspace.store.extent b = (reached limit history).workspace.store.extent b ∧
        ∀ p, s'.workspace.store.read b p = (reached limit history).workspace.store.read b p) ∧
      -- So every array has the elements that it had.
      ∀ name v, (name, Operand.array v) ∈ (reached limit history).named →
        v.buffer < (reached limit history).workspace.store.buffers.size ∧
        v.codes s'.workspace.store = v.codes (reached limit history).workspace.store) ∧
    ∀ s', c.run (reached limit history) = .ok () s' →
      ∃ e : LogEntry, s'.workspace.log = (reached limit history).workspace.log ++ [e] ∧
        e.kind = c.kind := by
  have hsound := reached_sound limit history
  generalize reached limit history = s at *
  have hends := c.run_ends hsound
  refine ⟨fun e s' hfault => ?_, fun s' hreturn => ?_⟩
  · have hkept : s.Keeps s' := hends.of_error hfault
    have hstore := hkept.workspace.store
    refine ⟨hkept.config, hkept.workspace.log, hkept.named,
      fun b hb => ⟨hstore.extent b hb, hstore.read b hb⟩, fun name v hv => ?_⟩
    have hb : v.buffer < s.workspace.store.buffers.size := hsound _ hv v.buffer rfl
    exact ⟨hb, hstore.gather hb v.places⟩
  · exact (hends.of_ok hreturn).1.log

end Session

namespace Sample

/-- A plane and a row, and an engine that walks along one axis only. -/
def capped : List Session.Action := [
  .engine { maxRank := 1 },
  .create "plane" (.fresh
    { kind := .host, type := .int64, layout := .rowMajor [2, 2], codes := [1, 2, 3, 4] }),
  .create "row" (.fresh
    { kind := .host, type := .int64, layout := .rowMajor [2], codes := [5, 6] })]

def firstRow : Session.EngineCall :=
  .assign "plane" (.masks { begins := [0], ends := [1], strides := [1], shrinkMask := 1 })
    (.named "row")

theorem call_atomic_firstRow : ∃ e s', firstRow.run (Session.reached 1024 capped) = .error e s' ∧
    s'.workspace.log = (Session.reached 1024 capped).workspace.log ∧
    ∀ name v, (name, Operand.array v) ∈ (Session.reached 1024 capped).named →
      v.codes s'.workspace.store = v.codes (Session.reached 1024 capped).workspace.store := by
  obtain ⟨hkept, _⟩ := Session.call_atomic 1024 capped firstRow
  have hfails : succeeds (firstRow.run (Session.reached 1024 capped)) = false := by decide
  cases hrun : firstRow.run (Session.reached 1024 capped) with
  | ok _ _ =>
    rw [hrun] at hfails
    cases hfails
  | error e s' =>
    obtain ⟨_, hlog, _, _, hcodes⟩ := hkept e s' hrun
    exact ⟨e, s', rfl, hlog, fun name v hv => (hcodes name v hv).2⟩

end Sample

end Hyperslab
