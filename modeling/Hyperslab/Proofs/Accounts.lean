import Hyperslab.Proofs.Assign
import Hyperslab.Proofs.Gradient
import Hyperslab.Proofs.Sessions

/-!
# The account of an engine

What a call selects is found from its arguments alone, with no call made.  The account
of an engine has an entry for each call that returned, in order, and its bytes are
counted by the elements selected on the input, although an entry counts those of the
final shape.
-/

namespace Hyperslab

open Store (Extends)

/-! ## Operands as a type and a shape -/

/-- The element type and the shape of an operand, a value being read as the engine would read it. -/
def Operand.form (c : Config) : Operand → Except Fault (ElementType × Shape)
  | .array v => .ok (v.type, v.shape)
  | .value v => do
    let b ← Backend.choose c.backend c.device [.value v]
    let l ← Literal.ofValue b.kind none v
    return (l.type, l.shape)

theorem Operand.form_of_toView {c : Config} {o : Operand} {b : Backend} {v : View} {s s' : Store}
    (hb : Backend.choose c.backend c.device [o] = .ok b) (h : o.toView b.kind s = .ok v s') :
    o.form c = .ok (v.type, v.shape) := by
  cases o with
  | array u =>
    rw [toView, ofExcept_eq_ok] at h
    obtain ⟨writeable, _, rfl, _⟩ := View.ofKind_eq_ok h.1
    rfl
  | value u =>
    simp only [toView, created, bind_eq_ok, ofExcept_eq_ok] at h
    obtain ⟨l, _, ⟨hl, rfl⟩, h⟩ := h
    rw [View.create_eq, EStateM.Result.ok.injEq] at h
    obtain ⟨rfl, _⟩ := h
    rw [form, hb]
    show (Literal.ofValue b.kind none u >>= fun l => pure (l.type, l.shape)) = _
    rw [hl]
    exact congrArg (fun shape => Except.ok (l.type, shape)) (Layout.shape_rowMajor l.shape).symm

/-- The shape that an operand stands for is read off cells that stay. -/
theorem Operand.shape_extends {o : Operand} {s s' : Store}
    (ho : ∀ b ∈ o.buffer?, b < s.buffers.size) (h : Extends s s') : o.shape s' = o.shape s := by
  cases o with
  | value v => cases v <;> rfl
  | array v =>
    have hcodes : ∀ u, v.ofKind .host = .ok u → u.codes s' = u.codes s := fun u hu => by
      obtain ⟨writeable, _, rfl, _⟩ := View.ofKind_eq_ok hu
      exact h.gather (ho v.buffer rfl) _
    unfold shape
    dsimp only
    cases hv : v.ofKind .host with
    | error e => rfl
    | ok u =>
      dsimp only [bind, Except.bind]
      rw [hcodes u hv]

/-! ## What an entry counts -/

/-- The bytes that a call moves.  What is selected is read and written once, and a gradient fills
its result with zeros first. -/
def CallKind.bytes (r : Resolution) (itemSize : Nat) : CallKind → Nat
  | resolve => 0
  | slice | assign => 2 * r.processingShape.size * itemSize
  | grad => (2 * r.processingShape.size + r.inputShape.size) * itemSize

namespace Config

variable {c : Config} {r : Resolution}

theorem entry_elements (h : r.Fits) (kind : CallKind) (x : Option Execution) :
    (c.entry kind r x).elements = r.processingShape.size := Resolution.size_finalShape h

/-- The bytes of an entry, which it counts by the final shape. -/
theorem entry_bytes (h : r.Fits) {kind : CallKind} (hkind : kind ≠ .resolve) (x : Execution) :
    (c.entry kind r (some x)).bytes = kind.bytes r x.itemSize := by
  have hsize : r.finalShape.size = r.processingShape.size := Resolution.size_finalShape h
  show Traffic.bytes (.ofShapes r.inputShape r.finalShape x.itemSize (kind == .grad)) = _
  rw [Traffic.bytes, Traffic.ofShapes, Traffic.ofCounts, hsize]
  cases kind with
  | resolve => exact absurd rfl hkind
  | slice | assign =>
    simp only [CallKind.bytes, Nat.cast_mul, show (CallKind.slice == .grad) = false from rfl,
      show (CallKind.assign == .grad) = false from rfl]
    push_cast
    ring
  | grad =>
    simp only [CallKind.bytes, show (CallKind.grad == .grad) = true from rfl]
    push_cast
    ring

end Config

namespace Session

/-! ## What a call selects -/

variable {s s₁ s' : Session}

/-- The form of an argument. -/
def Argument.form (s : Session) : Argument → Except Fault (ElementType × Shape)
  | named name => do (← s.find? name).form s.config
  | value v => (Operand.value v).form s.config
  | fresh a => .ok (a.type, a.layout.shape)

/-- The shape that an argument stands for by its elements. -/
def Argument.extents (s : Session) (a : Argument) : Except Fault Shape :=
  match a.read s with
  | .ok o s' => o.shape s'.workspace.store
  | .error e _ => .error e

/-- What a call selects on its input, and the size of an item of its operand. -/
def EngineCall.selection (s : Session) : EngineCall → Except Fault (Resolution × Nat)
  | resolve shape spec => do return (← Resolution.ofValue (← Shape.ofValue shape) spec, 0)
  | slice _ array spec => do
    let (type, shape) ← array.form s
    return (← Resolution.ofValue shape spec, type.itemSize)
  | grad _ shape spec dy => do
    let (type, _) ← dy.form s
    return (← Resolution.ofValue (← shape.extents s) spec, type.itemSize)
  | assign name spec _ => do
    let (type, shape) ← (← s.find? name).form s.config
    return (← Resolution.ofValue shape spec, type.itemSize)

/-- The bytes that a call moves, none if it selects nothing that can be resolved. -/
def EngineCall.cost (s : Session) (c : EngineCall) : Nat :=
  match c.selection s with
  | .ok (r, itemSize) => c.kind.bytes r itemSize
  | .error _ => 0

/-- Whether the two shapes of what a call selects can be written. -/
def EngineCall.isLegible (s : Session) (c : EngineCall) : Bool :=
  match c.selection s with
  | .ok (r, _) => (r.inputShape ++ r.finalShape).all (Text.legible ·)
  | .error _ => true

/-- An entry tells of a call what it selected and moved. -/
structure Records (s : Session) (c : EngineCall) (e : LogEntry) : Prop where
  kind : e.kind = c.kind
  selection : ∃ r itemSize, c.selection s = .ok (r, itemSize) ∧ e.inputShape = r.inputShape ∧
    e.processingShape = r.processingShape ∧ e.finalShape = r.finalShape ∧
    e.elements = r.processingShape.size ∧ e.bytes = c.kind.bytes r itemSize

theorem Records.bytes {c : EngineCall} {e : LogEntry} (h : s.Records c e) :
    e.bytes = c.cost s := by
  obtain ⟨r, itemSize, hselection, _, _, _, _, hbytes⟩ := h.selection
  rw [hbytes, EngineCall.cost, hselection]

theorem Records.isLegible {c : EngineCall} {e : LogEntry} (h : s.Records c e) :
    e.isLegible = c.isLegible s := by
  obtain ⟨r, itemSize, hselection, hinput, _, hfinal, _⟩ := h.selection
  rw [LogEntry.isLegible, hinput, hfinal, EngineCall.isLegible, hselection]

theorem records_entry {c : EngineCall} {config : Config} {r : Resolution} {x : Execution}
    (hkind : c.kind ≠ .resolve) (hr : r.Fits) (h : c.selection s = .ok (r, x.itemSize)) :
    s.Records c (config.entry c.kind r (some x)) :=
  ⟨rfl, r, x.itemSize, h, rfl, rfl, rfl, Config.entry_elements hr c.kind _,
    Config.entry_bytes hr hkind x⟩

/-! ## One call -/

theorem find?_congr (h : s'.named = s.named) (name : String) : s'.find? name = s.find? name := by
  rw [find?, find?, h]

theorem Argument.form_congr (hn : s'.named = s.named) (hc : s'.config = s.config) (a : Argument) :
    a.form s' = a.form s := by
  cases a with
  | named name => rw [form, form, find?_congr hn, hc]
  | value v => rw [form, form, hc]
  | fresh a => rfl

theorem call_eq_ok {α : Type} {x : Call α} {a : α} :
    Step.call x s = .ok a s' ↔ ∃ w, x s.workspace = .ok a w ∧ { s with workspace := w } = s' := by
  unfold Step.call
  cases x s.workspace with
  | ok b w =>
    constructor
    · intro h
      cases h
      exact ⟨w, rfl, rfl⟩
    · intro h
      obtain ⟨_, h, rfl⟩ := h
      cases h
      rfl
  | error e w =>
    constructor
    · intro h
      cases h
    · intro h
      obtain ⟨_, h, _⟩ := h
      cases h

theorem Argument.form_of_read {a : Argument} {o : Operand} (h : a.read s = .ok o s₁) :
    a.form s = o.form s.config := by
  cases a with
  | named name =>
    simp only [read, Step.operand, bind_eq_ok, get_eq_ok, ofExcept_eq_ok] at h
    obtain ⟨_, _, ⟨rfl, rfl⟩, ho, _⟩ := h
    rw [form, ho]
    rfl
  | value v =>
    obtain ⟨rfl, _⟩ := pure_eq_ok.mp h
    rfl
  | fresh a =>
    simp only [read, Step.onStore, bind_eq_ok, call_eq_ok, onStore_eq_ok, pure_eq_ok] at h
    obtain ⟨v, _, ⟨_, ⟨_, hv, _⟩, _⟩, rfl, _⟩ := h
    simp only [NewArray.make, bind_eq_ok, View.create_eq, pure_eq_ok] at hv
    obtain ⟨u, _, hu, rfl, _⟩ := hv
    rw [EStateM.Result.ok.injEq] at hu
    obtain ⟨rfl, _⟩ := hu
    rfl

theorem Argument.extents_of_read {a : Argument} {o : Operand} (h : a.read s = .ok o s₁) :
    a.extents s = o.shape s₁.workspace.store := by
  rw [extents, h]

/-- Reading an argument keeps everything, and what is read has its cells. -/
theorem Argument.read_keeps (h : s.Sound) {a : Argument} {o : Operand} (ho : a.read s = .ok o s₁) :
    s.Keeps s₁ ∧ s₁.Sound ∧ Held o s₁ := by
  have hall := sound_iff.mp h
  obtain ⟨hkept, hheld⟩ := (a.read_ends held_invariant hall a.fit_true).of_ok ho
  refine ⟨hkept, sound_iff.mpr (held_invariant.all_keeps hall hkept), fun b hb => ?_⟩
  obtain ⟨v, hv, rfl⟩ := Option.map_eq_some_iff.mp hb
  exact hheld v hv

namespace EngineCall

theorem resolve_records {shape spec : Value} (h : (resolve shape spec).run s = .ok () s') :
    ∃ e, s'.workspace.log = s.workspace.log ++ [e] ∧ s.Records (resolve shape spec) e := by
  simp only [run, Step.resolve, Config.resolve, bind_eq_ok, get_eq_ok, call_eq_ok, ofExcept_eq_ok,
    Config.record_eq_ok, pure_eq_ok] at h
  obtain ⟨_, _, ⟨_, _, ⟨rfl, rfl⟩, _, ⟨extents, _, ⟨hextents, rfl⟩, r, _, ⟨hr, rfl⟩, _, _, rfl,
    rfl, rfl⟩, rfl⟩, _, rfl⟩ := h
  have hselection : (resolve shape spec).selection s = .ok (r, 0) := by
    simp only [selection, except_bind_eq_ok, except_pure_eq_ok]
    exact ⟨extents, hextents, r, hr, rfl⟩
  exact ⟨_, rfl, rfl, r, 0, hselection, rfl, rfl, rfl,
    Config.entry_elements (Resolution.ofValue_fits hr).1 _ _, rfl⟩

theorem slice_records (h : s.Sound) {name : String} {array : Argument} {spec : Value}
    (hrun : (slice name array spec).run s = .ok () s') :
    ∃ e, s'.workspace.log = s.workspace.log ++ [e] ∧ s.Records (slice name array spec) e := by
  simp only [run, Step.slice, Step.define, bind_eq_ok, get_eq_ok, call_eq_ok, modify_eq_ok] at hrun
  obtain ⟨o, s₁, ho, _, _, ⟨rfl, rfl⟩, out, _, ⟨w, hslice, rfl⟩, rfl⟩ := hrun
  obtain ⟨hkept, _, _⟩ := Argument.read_keeps h ho
  obtain ⟨b, source, t, r, route, hb, hsource, hr, _, _, hlog⟩ := Config.slice_eq_ok hslice
  have hform : array.form s = .ok (source.type, source.shape) := by
    rw [Argument.form_of_read ho, ← hkept.config]
    exact Operand.form_of_toView hb hsource
  refine ⟨_, hkept.workspace.log ▸ hlog,
    records_entry (c := slice name array spec) (fun h => by cases h)
      (Resolution.ofValue_fits hr).1 ?_⟩
  simp only [selection, except_bind_eq_ok, except_pure_eq_ok]
  exact ⟨_, hform, r, hr, rfl⟩

theorem grad_records (h : s.Sound) {name : String} {shape dy : Argument} {spec : Value}
    (hrun : (grad name shape spec dy).run s = .ok () s') :
    ∃ e, s'.workspace.log = s.workspace.log ++ [e] ∧ s.Records (grad name shape spec dy) e := by
  simp only [run, Step.grad, Step.define, bind_eq_ok, get_eq_ok, call_eq_ok, modify_eq_ok] at hrun
  obtain ⟨sh, s₁, hsh, o, s₂, ho, _, _, ⟨rfl, rfl⟩, out, _, ⟨w, hgrad, rfl⟩, rfl⟩ := hrun
  obtain ⟨hkept₁, hsound, hheld⟩ := Argument.read_keeps h hsh
  obtain ⟨hkept₂, _, _⟩ := Argument.read_keeps hsound ho
  have hkept := hkept₁.trans hkept₂
  obtain ⟨input, b, seen, t, r, _, _, hinput, hb, hseen, hr, _, _, _, hlog⟩ :=
    Config.grad_stages hgrad
  have hform : dy.form s = .ok (seen.type, seen.shape) := by
    rw [← Argument.form_congr hkept₁.named hkept₁.config, Argument.form_of_read ho, ← hkept₂.config]
    exact Operand.form_of_toView hb hseen
  -- The shape is read off the cells before `dy` is read, which adds cells at most.
  have hextents : shape.extents s = .ok input := by
    rw [Argument.extents_of_read hsh, ← hinput]
    exact (Operand.shape_extends hheld hkept₂.workspace.store).symm
  refine ⟨_, hkept.workspace.log ▸ hlog,
    records_entry (c := grad name shape spec dy) (fun h => by cases h)
      (Resolution.ofValue_fits hr).1 ?_⟩
  simp only [selection, except_bind_eq_ok, except_pure_eq_ok]
  exact ⟨_, hform, input, hextents, r, hr, rfl⟩

theorem assign_records (h : s.Sound) {name : String} {spec : Value} {value : Argument}
    (hrun : (assign name spec value).run s = .ok () s') :
    ∃ e, s'.workspace.log = s.workspace.log ++ [e] ∧ s.Records (assign name spec value) e := by
  simp only [run, Step.assign, Step.operand, bind_eq_ok, get_eq_ok, call_eq_ok,
    ofExcept_eq_ok] at hrun
  obtain ⟨o, s₁, ho, target, _, ⟨_, _, ⟨rfl, rfl⟩, htarget, rfl⟩, _, _, ⟨rfl, rfl⟩, w, hassign,
    rfl⟩ := hrun
  obtain ⟨hkept, _, _⟩ := Argument.read_keeps h ho
  obtain ⟨b, ref, r, _, _, _, hb, href, hr, _, _, _, hlog⟩ := Config.assign_stages hassign
  have hform : target.form s.config = .ok (ref.type, ref.shape) := by
    cases target with
    | value v => cases href
    | array v =>
      obtain ⟨rfl, _⟩ := Backend.target_eq_ok href
      rfl
  refine ⟨_, hkept.workspace.log ▸ hlog,
    records_entry (c := assign name spec value) (fun h => by cases h)
      (Resolution.ofValue_fits hr).1 ?_⟩
  simp only [selection, except_bind_eq_ok, except_pure_eq_ok]
  exact ⟨target, (find?_congr hkept.named name).symm.trans htarget, _, hform, r, hr, rfl⟩

/-- A call that returns adds the entry that tells what it selected. -/
theorem run_records (h : s.Sound) {c : EngineCall} (hrun : c.run s = .ok () s') :
    ∃ e, s'.workspace.log = s.workspace.log ++ [e] ∧ s.Records c e := by
  cases c with
  | resolve shape spec => exact resolve_records hrun
  | slice name array spec => exact slice_records h hrun
  | grad name shape spec dy => exact grad_records h hrun
  | assign name spec value => exact assign_records h hrun

end EngineCall

/-! ## Actions that are no calls -/

/-- Without a new engine and without a call the log stays. -/
theorem after_log (h : s.Sound) {a : Action} (hengine : ∀ c, a ≠ .engine c)
    (hcall : ∀ c, a ≠ .call c) : (s.after a).workspace.log = s.workspace.log := by
  have hall := sound_iff.mp h
  have hends : Ends (a.run s) (fun _ s' => s'.workspace.log = s.workspace.log)
      (fun s' => s'.workspace.log = s.workspace.log) := by
    have hsame : ∀ s', s' = s → s'.workspace.log = s.workspace.log := fun s' he => he ▸ rfl
    cases a with
    | engine c => exact absurd rfl (hengine c)
    | call c => exact absurd rfl (hcall c)
    | create name a =>
      refine ((a.read_ends held_invariant hall a.fit_true).mono (fun _ _ ho => ho)
        fun _ he => he.workspace.log).bind fun o s₁ ho => ?_
      exact ho.1.workspace.log
    | view name source key =>
      refine ((array_ends hall source).mono (fun _ _ hv => hv) hsame).bind fun v s₁ hv => ?_
      obtain ⟨rfl, _⟩ := hv
      exact Ends.read_bind (Ends.lift_bind rfl fun o _ => rfl)
    | transpose name source order =>
      refine ((array_ends hall source).mono (fun _ _ hv => hv) hsame).bind fun v s₁ hv => ?_
      obtain ⟨rfl, _⟩ := hv
      exact Ends.lift_bind rfl fun w _ => rfl
    | set name place value =>
      refine ((array_ends hall name).mono (fun _ _ hv => hv) hsame).bind fun v s₁ hv => ?_
      obtain ⟨rfl, _⟩ := hv
      have hset : Ends (Workspace.onStore (v.setElement place value) s₁.workspace)
          (fun _ w => w.log = s₁.workspace.log) s₁.workspace.Keeps :=
        Ends.onStore ((v.setElement_ends place value s₁.workspace.store).mono
          (fun _ _ _ => rfl) fun t ht => ht ▸ Workspace.Keeps.refl s₁.workspace)
      exact (Session.call_ends hset).mono (fun _ _ hs => hs.1) fun _ he => he.workspace.log
  unfold after
  cases hx : a.run s with
  | ok u s' => exact hends.of_ok hx
  | error e s' => exact hends.of_error hx

theorem after_sound (h : s.Sound) (a : Action) : (s.after a).Sound :=
  sound_iff.mpr (held_invariant.after_all (sound_iff.mp h) a.fit_true)

/-! ## Histories -/

/-- The calls among some actions that return, each with the session that it is made in. -/
def returning (s : Session) : List Action → List (Session × EngineCall)
  | [] => []
  | .call c :: rest =>
    if succeeds (c.run s) then (s, c) :: returning (s.after (.call c)) rest
    else returning (s.after (.call c)) rest
  | a :: rest => returning (s.after a) rest

theorem returning_cons {a : Action} (hcall : ∀ c, a ≠ .call c) (rest : List Action) :
    s.returning (a :: rest) = (s.after a).returning rest := by
  cases a with
  | call c => exact absurd rfl (hcall c)
  | _ => rfl

theorem after_of_ok {a : Action} {s' : Session} (h : a.run s = .ok () s') : s.after a = s' := by
  rw [after, h]

theorem after_of_error {a : Action} {e : Fault} {s' : Session} (h : a.run s = .error e s') :
    s.after a = s' := by
  rw [after, h]

theorem after_call_of_fails (h : s.Sound) {c : EngineCall} (hc : succeeds (c.run s) = false) :
    (s.after (.call c)).workspace.log = s.workspace.log := by
  cases hx : c.run s with
  | ok u s' =>
    rw [hx] at hc
    cases hc
  | error e s' =>
    rw [after_of_error (a := .call c) hx]
    exact ((c.run_ends h).of_error hx).workspace.log

theorem after_call_of_succeeds (h : s.Sound) {c : EngineCall} (hc : succeeds (c.run s) = true) :
    ∃ e, (s.after (.call c)).workspace.log = s.workspace.log ++ [e] ∧ s.Records c e := by
  obtain ⟨_, s', hx⟩ := returns_of_succeeds hc
  rw [after_of_ok (a := .call c) hx]
  exact EngineCall.run_records h hx

/-- Some actions with the same engine add an entry for each call that returns. -/
theorem run_log (h : s.Sound) {actions : List Action} (hactions : ∀ c, .engine c ∉ actions) :
    ∃ entries, (actions.foldl after s).workspace.log = s.workspace.log ++ entries ∧
      List.Forall₂ (fun x e => Records x.1 x.2 e) (s.returning actions) entries := by
  induction actions generalizing s with
  | nil => exact ⟨[], (List.append_nil _).symm, .nil⟩
  | cons a rest ih =>
    have hrest : ∀ c, .engine c ∉ rest := fun c hc => hactions c (List.mem_cons_of_mem a hc)
    obtain ⟨entries, hlog, hrecords⟩ := ih (after_sound h a) hrest
    rw [List.foldl_cons, hlog]
    by_cases hcall : ∃ c, a = .call c
    · obtain ⟨c, rfl⟩ := hcall
      rw [returning]
      split_ifs with hc
      · obtain ⟨e, he, hrecord⟩ := after_call_of_succeeds h hc
        refine ⟨e :: entries, ?_, .cons hrecord hrecords⟩
        rw [he, List.append_assoc]
        rfl
      · rw [after_call_of_fails h (Bool.eq_false_iff.mpr hc)]
        exact ⟨entries, rfl, hrecords⟩
    · have hcall : ∀ c, a ≠ .call c := fun c hc => hcall ⟨c, hc⟩
      have hengine : ∀ c, a ≠ .engine c := fun c hc => hactions c (hc ▸ List.mem_cons_self)
      rw [after_log h hengine hcall, returning_cons hcall]
      exact ⟨entries, rfl, hrecords⟩

/-- What the entries of some calls sum up to. -/
theorem bytes_of_records {calls : List (Session × EngineCall)} {entries : Log}
    (h : List.Forall₂ (fun x e => Records x.1 x.2 e) calls entries) :
    entries.bytes = (calls.foldr (fun x total => x.2.cost x.1 + total) 0 : Nat) := by
  induction h with
  | nil => rfl
  | cons hrecord _ ih =>
    rw [List.foldr_cons, Nat.cast_add, ← ih, ← hrecord.bytes]
    rfl

theorem isLegible_of_records {calls : List (Session × EngineCall)} {entries : Log}
    (h : List.Forall₂ (fun x e => Records x.1 x.2 e) calls entries) :
    entries.all LogEntry.isLegible = calls.all fun x => x.2.isLegible x.1 := by
  induction h with
  | nil => rfl
  | cons hrecord _ ih => rw [List.all_cons, List.all_cons, hrecord.isLegible, ih]

theorem reached_append (limit : Nat) (history actions : List Action) :
    reached limit (history ++ actions) = actions.foldl after (reached limit history) :=
  List.foldl_append

end Session

namespace Sample

/-- Calls of one engine, of which the third and the fourth fail. -/
def booked : List Session.Action := [
  .create "plane" (.fresh
    { kind := .host, type := .int64, layout := .rowMajor [2, 2], codes := [1, 2, 3, 4] }),
  .call (.resolve (.list [.whole 2, .whole 2]) .ellipsis),
  .call (.slice "row" (.named "plane") (.whole 0)),
  .call firstRow,
  .call (.resolve (.list [.whole 2]) (.whole 2)),
  .call (.grad "back" (.value (.list [.whole 3])) (.slice (.whole 0) (.whole 2) .null)
    (.named "row"))]

end Sample

end Hyperslab
