import Hyperslab.Proofs.Ends
import Hyperslab.Proofs.Slice

/-!
# Where results have their cells

An operation that reads leaves every cell there was as it was, also when it stops at
a fault, and the array it gives has new cells or those of its source.  A write can
only change cells as its very last step, so a write that stops at a fault has not
changed any.  Nothing is asked of the layouts here: this holds of every array.
-/

namespace Hyperslab

open Store (Extends)

namespace Store

theorem count_scatter (s : Store) (buffer : Nat) (places codes : List Int) :
    (s.scatter buffer places codes).buffers.size = s.buffers.size := by
  induction places generalizing s codes with
  | nil => rfl
  | cons p places ih =>
    cases codes with
    | nil => rfl
    | cons c codes => rw [scatter_cons, ih, count_write]

theorem extent_scatter (s : Store) (buffer b : Nat) (places codes : List Int) :
    (s.scatter buffer places codes).extent b = s.extent b := by
  induction places generalizing s codes with
  | nil => rfl
  | cons p places ih =>
    cases codes with
    | nil => rfl
    | cons c codes => rw [scatter_cons, ih, extent_write]

theorem limit_scatter (s : Store) (buffer : Nat) (places codes : List Int) :
    (s.scatter buffer places codes).limit = s.limit := by
  induction places generalizing s codes with
  | nil => rfl
  | cons p places ih =>
    cases codes with
    | nil => rfl
    | cons c codes => rw [scatter_cons, ih, limit_write]

/-- Writing to a buffer leaves every other one alone. -/
theorem read_scatter_ne (s : Store) {buffer b : Nat} (hb : b ≠ buffer) (places codes : List Int)
    (p : Int) : (s.scatter buffer places codes).read b p = s.read b p := by
  induction places generalizing s codes with
  | nil => rfl
  | cons q places ih =>
    cases codes with
    | nil => rfl
    | cons c codes => rw [scatter_cons, ih, read_write_ne fun he => absurd he hb]

/-- Writing to a buffer that was not there before leaves what was there alone. -/
theorem Extends.scatter {s t : Store} {buffer : Nat} (h : Extends s t)
    (hb : s.buffers.size ≤ buffer) (places codes : List Int) :
    Extends s (t.scatter buffer places codes) where
  count := by
    rw [count_scatter]
    exact h.count
  extent b hlt := by rw [extent_scatter, h.extent b hlt]
  read b hlt p := by rw [read_scatter_ne t (by omega), h.read b hlt]
  limit := (limit_scatter t buffer places codes).trans h.limit

/-- Buffers were added, and then cells of one buffer were written. -/
def Written (s : Store) (buffer : Nat) (s' : Store) : Prop :=
  ∃ t places codes, Extends s t ∧ s' = t.scatter buffer places codes

theorem Extends.written {s t : Store} (h : Extends s t) (buffer : Nat) : s.Written buffer t :=
  ⟨t, [], [], h, rfl⟩

/-- No buffer is lost, and each keeps its number of cells. -/
structure Covers (s s' : Store) : Prop where
  count : s.buffers.size ≤ s'.buffers.size
  extent : ∀ b < s.buffers.size, s'.extent b = s.extent b

namespace Covers

variable {s t s' : Store}

theorem refl (s : Store) : s.Covers s := ⟨Nat.le_refl _, fun _ _ => rfl⟩

theorem trans (h : s.Covers t) (h' : t.Covers s') : s.Covers s' where
  count := Nat.le_trans h.count h'.count
  extent b hb := (h'.extent b (Nat.lt_of_lt_of_le hb h.count)).trans (h.extent b hb)

theorem hasCell (h : s.Covers s') {b : Nat} {p : Int} (hp : s.HasCell b p) : s'.HasCell b p := by
  rw [HasCell, h.extent b hp.lt_count]
  exact hp

end Covers

theorem Extends.covers {s s' : Store} (h : Extends s s') : s.Covers s' := ⟨h.count, h.extent⟩

theorem covers_scatter (s : Store) (buffer : Nat) (places codes : List Int) :
    s.Covers (s.scatter buffer places codes) where
  count := (count_scatter s buffer places codes).ge
  extent b _ := extent_scatter s buffer b places codes

namespace Written

variable {s t s' : Store} {buffer : Nat}

theorem of_extends (h : Extends s t) (h' : t.Written buffer s') : s.Written buffer s' := by
  obtain ⟨u, places, codes, hu, rfl⟩ := h'
  exact ⟨u, places, codes, h.trans hu, rfl⟩

theorem covers (h : s.Written buffer s') : s.Covers s' := by
  obtain ⟨t, places, codes, ht, rfl⟩ := h
  exact ht.covers.trans (t.covers_scatter buffer places codes)

/-- A write to a buffer that was not there before changes nothing that was. -/
theorem extends_of_new (h : s.Written buffer s') (hb : s.buffers.size ≤ buffer) : Extends s s' := by
  obtain ⟨t, places, codes, ht, rfl⟩ := h
  exact ht.scatter hb places codes

end Written

end Store

/-- What was there is as it was, and the array has its cells in a new buffer, or in the source. -/
structure Yields (source : Option Nat) (s : Store) (out : View) (s' : Store) : Prop where
  kept : Extends s s'
  origin : source = some out.buffer ∨ s.buffers.size ≤ out.buffer ∧ out.buffer < s'.buffers.size

namespace Yields

variable {source : Option Nat} {s s₁ s' : Store} {v w out : View}

theorem source_self (v : View) (s : Store) : Yields (some v.buffer) s v s :=
  ⟨Extends.refl s, .inl rfl⟩

theorem of_new (h : Yields none s out s') : Yields source s out s' :=
  ⟨h.kept, .inr (h.origin.resolve_left fun he => nomatch he)⟩

theorem of_buffer (h : Yields source s out s') (hb : w.buffer = out.buffer) :
    Yields source s w s' := by
  refine ⟨h.kept, ?_⟩
  rw [hb]
  exact h.origin

theorem trans (h : Yields source s w s₁) (h' : Yields (some w.buffer) s₁ out s') :
    Yields source s out s' := by
  refine ⟨h.kept.trans h'.kept, ?_⟩
  have hcount := h.kept.count
  have hcount' := h'.kept.count
  rcases h'.origin with he | hnew
  · rw [← Option.some.inj he]
    rcases h.origin with hs | hnew
    · exact .inl hs
    · exact .inr (by omega)
  · exact .inr (by omega)

/-- A write to an array that was not there before changes nothing that was. -/
theorem fill (h : Yields source s out s₁) (hb : s.buffers.size ≤ w.buffer) (codes : List Int) :
    Yields source s out (w.fill codes s₁) := by
  refine ⟨h.kept.scatter hb w.places codes, ?_⟩
  rw [View.fill, Store.count_scatter]
  exact h.origin

theorem lt_count (h : Yields source s out s') (hs : ∀ b ∈ source, b < s.buffers.size) :
    out.buffer < s'.buffers.size := by
  have hcount := h.kept.count
  rcases h.origin with he | hnew
  · have := hs out.buffer he
    omega
  · exact hnew.2

theorem new_le (h : Yields none s out s') : s.buffers.size ≤ out.buffer :=
  (h.origin.resolve_left fun he => nomatch he).1

/-- An operation on the array that another one gives. -/
theorem andThen {x : Memory View} {f : View → Memory View}
    (hx : Ends (x s) (Yields source s) (Extends s))
    (hf : ∀ w s, Ends (f w s) (Yields (some w.buffer) s) (Extends s)) :
    Ends ((x >>= f) s) (Yields source s) (Extends s) :=
  hx.bind fun w s₁ hw => (hf w s₁).mono (fun _ _ hout => hw.trans hout) fun _ he =>
    hw.kept.trans he

end Yields

namespace View

variable {v : View} {s : Store}

/-! ## New arrays and other shapes -/

theorem create_yields (kind : ArrayKind) (type : ElementType) (l : Layout) (codes : List Int)
    (s : Store) : Ends (create kind type l codes s) (Yields none s) (Extends s) := by
  have hgrow := Store.extends_grow s l.size
  refine ⟨hgrow.scatter (Nat.le_refl _) l.places codes, .inr ⟨Nat.le_refl _, ?_⟩⟩
  rw [fill, Store.count_scatter, Store.grow, Array.size_push]
  exact Nat.lt_succ_self _

theorem make_yields (kind : ArrayKind) (type : ElementType) (l : Layout) (codes : List Int)
    (s : Store) : Ends (make kind type l codes s) (Yields none s) (Extends s) := by
  unfold make
  exact Ends.read_bind (Ends.lift_bind (Extends.refl s) fun _ _ => create_yields _ _ _ _ s)

theorem copy_yields (v : View) (s : Store) : Ends (v.copy s) (Yields none s) (Extends s) := by
  unfold copy
  apply Ends.read_bind
  refine (make_yields _ _ _ _ s).bind fun w s₁ hw => ?_
  exact Ends.ret (hw.of_buffer rfl)

theorem settle_yields (v : View) (zeroCopy : Bool) (s : Store) :
    Ends (v.settle zeroCopy s) (Yields (some v.buffer) s) (Extends s) := by
  unfold settle
  split
  · exact Ends.ret (Yields.source_self v s)
  · exact (v.copy_yields s).mono (fun _ _ h => h.of_new) fun _ h => h

theorem ofType_yields (v : View) (type : ElementType) (s : Store) :
    Ends (v.ofType type s) (Yields (some v.buffer) s) (Extends s) := by
  unfold ofType
  by_cases ht : v.type = type
  · rw [if_pos ht]
    exact Ends.ret (Yields.source_self v s)
  · rw [if_neg ht]
    apply Ends.read_bind
    refine (make_yields _ _ _ _ s).bind fun w s₁ hw => ?_
    exact Ends.ret (hw.of_new.of_buffer rfl)

theorem reshape_yields (v : View) (shape : Shape) (s : Store) :
    Ends (v.reshape shape s) (Yields (some v.buffer) s) (Extends s) := by
  unfold reshape
  refine Ends.check (Extends.refl s) fun _ => Ends.check (Extends.refl s) fun _ => ?_
  cases v.layout.reshape? shape with
  | some l => exact Ends.ret ((Yields.source_self v s).of_buffer rfl)
  | none =>
    apply Ends.read_bind
    refine (make_yields _ _ _ _ s).bind fun w s₁ hw => ?_
    exact Ends.ret (hw.of_new.of_buffer rfl)

theorem zeros_yields (kind : ArrayKind) (type : ElementType) (shape : Shape) (s : Store) :
    Ends (zeros kind type shape s) (Yields none s) (Extends s) := by
  unfold zeros
  exact Ends.lift_bind (Extends.refl s) fun _ _ => make_yields _ _ _ _ s

/-! ## Copies in bulk -/

theorem copyIdentity_yields (v : View) (r : Resolution) (zeroCopy : Bool) (s : Store) :
    Ends (v.copyIdentity r zeroCopy s) (Yields (some v.buffer) s) (Extends s) :=
  Yields.andThen (v.reshape_yields r.finalShape s) fun w s => w.settle_yields zeroCopy s

theorem flat_yields (v : View) (s : Store) :
    Ends (v.flat s) (Yields (some v.buffer) s) (Extends s) := by
  unfold flat
  exact Ends.check (Extends.refl s) fun _ => v.reshape_yields [v.size] s

theorem copyLead_yields (v : View) (r : Resolution) (zeroCopy : Bool) (s : Store) :
    Ends (v.copyLead r zeroCopy s) (Yields (some v.buffer) s) (Extends s) := by
  unfold copyLead
  cases r.axes with
  | nil => exact Ends.fault (Extends.refl s)
  | cons lead rest =>
    refine Yields.andThen (v.flat_yields s) fun w s => ?_
    -- A segment is a window onto the buffer of the array.
    have hrun := (w.segment (lead.interval.start * (Shape.size (rest.map (·.extent)) : Int))
      (lead.interval.stop * (Shape.size (rest.map (·.extent)) : Int))).reshape_yields r.finalShape s
    exact Yields.andThen hrun fun run s => run.settle_yields zeroCopy s

theorem copyRow_yields {target : View} {s₁ : Store} {out : View} (h : Yields none s out s₁)
    (hb : s.buffers.size ≤ target.buffer) (i : Int) (source : View) (j first last : Int) :
    Ends (copyRow target i source j first last s₁) (fun _ s' => Yields none s out s')
      (Extends s) := by
  have hext := h.kept
  unfold copyRow
  refine Ends.check hext fun _ => Ends.lift_bind hext fun row hrow => ?_
  have hrow : s.buffers.size ≤ row.buffer := by
    unfold View.row at hrow
    split at hrow
    · dsimp only at hrow
      split_ifs at hrow
      all_goals
        cases hrow
        exact hb
    · cases hrow
  refine Ends.lift_bind hext fun from' _ => Ends.check hext fun _ => Ends.check hext fun _ =>
    Ends.read_bind ?_
  dsimp only
  generalize List.map _ _ = codes
  match codes with
  | [_] => exact h.fill hrow _
  | [] | _ :: _ :: _ => exact Ends.check hext fun _ => h.fill hrow _

theorem copyRows_yields {target : View} {s₁ : Store} {out : View} (h : Yields none s out s₁)
    (hb : s.buffers.size ≤ target.buffer) (source : View) (first last : Int) (count : Nat)
    (i j : Int) :
    Ends (copyRows target source first last count i j s₁) (fun _ s' => Yields none s out s')
      (Extends s) := by
  induction count generalizing i j s₁ with
  | zero => exact Ends.ret h
  | succ count ih =>
    unfold copyRows
    exact (copyRow_yields h hb i source j first last).bind fun _ _ hrow => ih hrow (i + 1) (j + 1)

theorem copyPlane_yields (v : View) (r : Resolution) (s : Store) :
    Ends (v.copyPlane r none s) (Yields none s) (Extends s) := by
  unfold copyPlane
  generalize r.intervals = is
  match is with
  | [] | [_] | _ :: _ :: _ :: _ => exact Ends.fault (Extends.refl s)
  | [rows, cols] =>
    refine (zeros_yields _ _ _ s).bind fun out s₁ hout => ?_
    refine ((out.reshape_yields r.processingShape s₁).mono (fun _ _ h => h) fun _ h =>
      hout.kept.trans h).bind fun target s₂ htarget => ?_
    have hnew : s.buffers.size ≤ target.buffer := (hout.trans htarget).new_le
    have hkept : Yields none s out s₂ := by
      have hlt := hout.lt_count (fun _ hb => nomatch hb)
      have hcount := htarget.kept.count
      exact ⟨hout.kept.trans htarget.kept, .inr ⟨hout.new_le, by omega⟩⟩
    exact (copyRows_yields hkept hnew _ _ _ _ _ _).bind fun _ _ h => Ends.ret h

/-! ## Windows -/

theorem readWindow_yields (v : View) (is : List Interval) (extents : Shape) (s : Store) :
    Ends (v.readWindow is extents s) (Yields none s) (Extends s) := by
  unfold readWindow
  apply Ends.read_bind
  cases v.kind with
  | host => exact Ends.lift_bind (Extends.refl s) fun _ _ => make_yields _ _ _ _ s
  | tensor =>
    refine Ends.lift_bind (Extends.refl s) fun w _ => ?_
    exact (make_yields _ _ _ _ s).bind fun out s₁ h => Ends.ret (h.of_buffer rfl)

theorem writeWindow_ends (v : View) (is : List Interval) (extents : Shape) (w : View) (s : Store) :
    Ends (v.writeWindow is extents w s) (fun _ s' => s.Written v.buffer s') (· = s) := by
  have htransfer : ∀ places, s.Written v.buffer (v.transfer places w s) := fun places => by
    obtain ⟨codes, hcodes⟩ := exists_transfer_eq_scatter v places w s
    exact ⟨s, places, codes, Extends.refl s, hcodes⟩
  unfold writeWindow
  apply Ends.read_bind
  cases v.kind with
  | host =>
    exact Ends.lift_bind rfl fun l _ => Ends.check rfl fun _ => htransfer l.places
  | tensor =>
    refine Ends.lift_bind rfl fun f _ => Ends.check rfl fun _ => ?_
    split
    · exact ⟨s, _, _, Extends.refl s, rfl⟩
    · exact htransfer f.layout.places

theorem writeAll_ends (v w : View) (s : Store) :
    Ends (v.writeAll w s) (fun _ s' => s.Written v.buffer s') (Extends s) := by
  unfold writeAll
  refine (w.reshape_yields v.shape s).bind fun values s₁ h => ?_
  obtain ⟨codes, hcodes⟩ := exists_transfer_eq_scatter v v.places values s₁
  exact ⟨s₁, v.places, codes, h.kept, hcodes⟩

end View

/-! ## Walks -/

theorem Resolution.walk_yields (r : Resolution) (v : View) (cap : Nat) (s : Store) :
    Ends (r.walk v .extract none cap s) (Yields none s) (Extends s) := by
  unfold Resolution.walk Walker.walk
  exact Ends.lift_bind (Extends.refl s) fun _ _ => Ends.check (Extends.refl s) fun _ =>
    v.readWindow_yields r.intervals r.processingShape s

theorem Resolution.walk_ends (r : Resolution) (v : View) (mode : WalkMode) (values : Option View)
    (cap : Nat) (s : Store) :
    Ends (r.walk v mode values cap s) (fun _ s' => s.Written v.buffer s') (Extends s) := by
  unfold Resolution.walk Walker.walk
  refine Ends.lift_bind (Extends.refl s) fun _ _ => Ends.check (Extends.refl s) fun _ => ?_
  split
  · exact (v.readWindow_yields _ _ s).mono (fun _ _ h => h.kept.written v.buffer) fun _ h => h
  · exact Ends.fault (Extends.refl s)
  · refine (View.reshape_yields _ _ s).bind fun values s₁ h => ?_
    -- A window that does not open is not written.
    have hwrite := v.writeWindow_ends r.intervals r.processingShape values s₁
    refine (hwrite.mono (fun _ _ hw => hw) fun t ht => ?_).bind fun _ t ht => ?_
    · rw [ht]
      exact h.kept
    · exact ht.of_extends h.kept

namespace Config

theorem extract_yields (c : Config) (v : View) (r : Resolution) (route : Route) (s : Store) :
    Ends (c.extract v r route s) (Yields (some v.buffer) s) (Extends s) := by
  have hzeros : Ends (View.zeros v.kind v.type r.finalShape s) (Yields (some v.buffer) s)
      (Extends s) :=
    (View.zeros_yields _ _ _ s).mono (fun _ _ h => h.of_new) fun _ h => h
  unfold Config.extract
  cases route with
  | identity => exact v.copyIdentity_yields r c.zeroCopy s
  | lead => exact v.copyLead_yields r c.zeroCopy s
  | rows =>
    dsimp only
    split
    · exact hzeros
    · exact (v.copyPlane_yields r s).mono (fun _ _ h => h.of_new) fun _ h => h
  | walk =>
    dsimp only
    split
    · exact hzeros
    · refine Yields.andThen ?_ fun w s => w.reshape_yields r.finalShape s
      exact (r.walk_yields v c.maxRank s).mono (fun _ _ h => h.of_new) fun _ h => h

/-- A write that stops at a fault has changed nothing. -/
theorem write_ends (c : Config) (v : View) (r : Resolution) (mode : WalkMode) (values : View)
    (s : Store) :
    Ends (c.write v r mode values s) (fun _ s' => s.Written v.buffer s') (Extends s) := by
  unfold Config.write
  split
  · exact v.writeAll_ends values s
  split
  · exact (r.walk_ends v mode (some values) c.maxRank s).bind fun _ _ h => Ends.ret h
  · exact Ends.ret ((Extends.refl s).written v.buffer)

end Config

/-! ## Operands -/

namespace Operand

/-- The buffer of an operand that is an array. -/
def buffer? (o : Operand) : Option Nat := o.view?.map (·.buffer)

theorem created_yields (kind : ArrayKind) (target : Option ElementType) (v : Value) (s : Store) :
    Ends (created kind target v s) (Yields none s) (Extends s) := by
  unfold created
  exact Ends.lift_bind (Extends.refl s) fun _ _ => View.create_yields _ _ _ _ s

theorem ofKind_buffer {v w : View} {kind : ArrayKind} (h : v.ofKind kind = .ok w) :
    w.buffer = v.buffer := by
  obtain ⟨_, _, rfl, _⟩ := View.ofKind_eq_ok h
  rfl

theorem toView_yields (o : Operand) (kind : ArrayKind) (s : Store) :
    Ends (o.toView kind s) (Yields o.buffer? s) (Extends s) := by
  cases o with
  | array v =>
    refine Ends.lift (Extends.refl s) fun w hw => ?_
    exact (Yields.source_self v s).of_buffer (ofKind_buffer hw)
  | value v => exact (created_yields kind none v s).mono (fun _ _ h => h.of_new) fun _ h => h

theorem toViewOf_yields (o : Operand) (kind : ArrayKind) (type : ElementType) (s : Store) :
    Ends (o.toViewOf kind type s) (Yields o.buffer? s) (Extends s) := by
  cases o with
  | array v =>
    refine Ends.lift_bind (Extends.refl s) fun w hw => ?_
    have hsource : (Operand.array v).buffer? = some w.buffer :=
      congrArg some (ofKind_buffer hw).symm
    rw [hsource]
    exact w.ofType_yields type s
  | value v => exact (created_yields kind _ v s).mono (fun _ _ h => h.of_new) fun _ h => h

end Operand

end Hyperslab
