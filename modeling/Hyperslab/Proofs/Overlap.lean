import Hyperslab.Proofs.Alike
import Hyperslab.Proofs.Placement

/-!
# Values that overlap the target

The value of an assignment may be the target itself, a shifted, strided or transposed
window onto its cells, or an array of the other kind over the same memory.  A private
copy of it leads to the same end, unless the overlap escapes the way in which storages
are told apart: then elements are overwritten before they are read.  A reversed host
array is no tensor, so for a tensor it is refused, and its copy is not.
-/

namespace Hyperslab

open Store (Extends)

/-! ## Private copies -/

namespace View

variable {v u : View} {s s' : Store}

theorem Same.copy (hv : v.Within s) (h : v.copy s = .ok u s') :
    Same s.buffers.size v s u s' := by
  obtain ⟨hext, hshow⟩ := copy_shows h
  exact ⟨(Store.Agree.refl (Nat.le_refl _)).grow (Extends.refl s) hext, (copy_kind h).symm, hv,
    hshow⟩

/-- A private copy can be seen as what the array can be seen as, unless the copy alone is not
reversed. -/
theorem ofKind_copy {kind : ArrayKind} (h : v.copy s = .ok u s')
    (hr : kind = .tensor → v.kind = .host → v.isReversed = false) :
    (v.ofKind kind).map (fun _ => ()) = (u.ofKind kind).map fun _ => () := by
  obtain ⟨new, hnew, rfl⟩ := copy_eq_ok h
  rw [create_eq] at hnew
  cases hnew
  obtain ⟨k, type, buffer, layout, writeable, tracking, start⟩ := v
  cases k with
  | host =>
    cases kind with
    | host => rfl
    | tensor =>
      have hdense : ∀ d ∈ layout.dense.dims, ¬d.stride < 0 := by
        intro d hd
        obtain ⟨a, _, rfl⟩ := List.mem_map.mp hd
        exact Int.not_lt.mpr (Int.natCast_nonneg _)
      have hcopy : layout.dense.dims.any (·.stride < 0) = false := by
        rw [List.any_eq_false]
        intro d hd
        simpa using hdense d hd
      have hforward : layout.dims.any (·.stride < 0) = false := hr rfl rfl
      simp only [ofKind, isReversed, hcopy, hforward]
      split_ifs <;> rfl
  | tensor =>
    cases kind with
    | host =>
      cases tracking with
      | untracked => rfl
      | leaf | leafView | derived => rfl
    | tensor => rfl

/-- A reversed host array is no tensor. -/
theorem toViewOf_reversed (hk : v.kind = .host) (hr : v.isReversed = true) (type : ElementType)
    (s : Store) : ∃ e, (Operand.array v).toViewOf .tensor type s = .error e s := by
  obtain ⟨e, he⟩ : ∃ e, v.ofKind .tensor = .error e := by
    obtain ⟨k, t, buffer, layout, writeable, tracking, start⟩ := v
    cases hk
    by_cases ht : t = .other
    · exact ⟨_, if_pos ht⟩
    · refine ⟨.reversedLayout, ?_⟩
      simp only [ofKind, if_neg ht]
      exact if_pos hr
  refine ⟨e, ?_⟩
  show (ofExcept (v.ofKind .tensor) >>= fun w => w.ofType type : Memory View) s = _
  rw [he]
  rfl

theorem Same.toViewOf {n : Nat} {t : Store} {kind : ArrayKind} (h : Same n v s u t)
    (hseen : (v.ofKind kind).map (fun _ => ()) = (u.ofKind kind).map fun _ => ())
    (type : ElementType) :
    Alike (Same n) (Store.Agree n) ((Operand.array v).toViewOf kind type s)
      ((Operand.array u).toViewOf kind type t) := by
  show Alike _ _ ((ofExcept (v.ofKind kind) >>= fun w => w.ofType type : Memory View) s)
    ((ofExcept (u.ofKind kind) >>= fun w => w.ofType type : Memory View) t)
  cases hv : v.ofKind kind with
  | error e =>
    cases hu : u.ofKind kind with
    | error e' =>
      rw [hv, hu] at hseen
      obtain rfl := Except.error.inj hseen
      exact .error h.agree
    | ok y =>
      rw [hv, hu] at hseen
      cases hseen
  | ok x =>
    cases hu : u.ofKind kind with
    | error e =>
      rw [hv, hu] at hseen
      cases hseen
    | ok y =>
      obtain ⟨first, start, rfl, _⟩ := View.ofKind_eq_ok hv
      obtain ⟨second, start', rfl, _⟩ := View.ofKind_eq_ok hu
      have hsame : Same n { v with kind, writeable := first, start } s
          { u with kind, writeable := second, start := start' } t :=
        ⟨h.agree, rfl, h.within.ofKind kind first start, h.shows.of_fields rfl rfl rfl⟩
      exact hsame.ofType type

end View

/-- Both calls return, or both stop at the same fault; the log and the first `n` buffers are the
same after both. -/
def Workspace.SameEnd (n : Nat) (x y : EStateM.Result Fault Workspace Unit) : Prop :=
  Alike (fun _ w _ w' => w.Agree n w') (Workspace.Agree n) x y

namespace Workspace.SameEnd

variable {n : Nat} {x y : EStateM.Result Fault Workspace Unit}

theorem of_ok {w : Workspace} (h : SameEnd n x y) (hx : x = .ok () w) :
    ∃ w', y = .ok () w' ∧ w.Agree n w' := by
  rw [hx] at h
  cases h with
  | ok h => exact ⟨_, rfl, h⟩

end Workspace.SameEnd

open Workspace (SameEnd)

/-! ## Assignments -/

namespace Config

variable {c : Config} {ref u u' : View} {spec : Value} {w w' : Workspace} {n : Nat}

/-- An assignment ends where a reversed host array would have to be a tensor. -/
theorem assign_reversed_ends (hk : ref.kind = .tensor) (hu : u.kind = .host)
    (hr : u.isReversed = true) :
    Ends (c.assign (.array ref) spec (.array u) w) (fun _ _ => False) w.Keeps := by
  have hkept := Workspace.Keeps.refl w
  refine Ends.lift_bind hkept fun b _ => Ends.lift_bind hkept fun target htarget =>
    Ends.lift_bind hkept fun r _ => ?_
  obtain ⟨rfl, hkind⟩ := Backend.target_eq_ok htarget
  rw [← hkind, hk]
  obtain ⟨e, he⟩ := View.toViewOf_reversed hu hr target.type w.store
  refine Ends.bind (Q := fun _ _ => False) (Ends.onStore ?_) fun _ _ h => h.elim
  rw [he]
  exact hkept

/-- The value as an array of the kind and the type of the target is read in time. -/
theorem Sound.toViewOf {values : View} {s s' : Store} {r : Resolution} (h : Sound ref spec u)
    (hr : Resolution.ofValue ref.shape spec = .ok r) (hb : ref.buffer < s.buffers.size)
    (hvalues : (Operand.array u).toViewOf ref.kind ref.type s = .ok values s') :
    values.Steady ref (r.selected.map ref.layout.placeAt) := by
  obtain ⟨seen, hseen, hvalues⟩ := Operand.toViewOf_array hvalues
  exact (h.steady hseen hr).ofType hb hvalues

/-- What is handed over is read before the first element is written, or none of it is written. -/
theorem handed_over {values : View} {s s' : Store} (h : u.Guarded ref)
    (hb : ref.buffer < s.buffers.size)
    (hvalues : (Operand.array u).toViewOf ref.kind ref.type s = .ok values s') :
    ref.readsFirst values = true ∨ values.shares ref = false := by
  obtain ⟨seen, hseen, hvalues⟩ := Operand.toViewOf_array hvalues
  rcases View.ofType_eq_ok hvalues with ⟨_, rfl, _⟩ | ⟨new, hnew, rfl⟩
  · exact (h.ofKind hseen).readsFirst (View.ofKind_same hseen).1
  · rw [View.create_eq] at hnew
    cases hnew
    exact .inr (View.not_shares_of_buffer (Nat.ne_of_gt hb))

/-- Assignments of values with the same elements, which are read in time and can be seen as arrays
of the same kinds, come to the same end. -/
theorem assign_alike (h : View.Same n u w.store u' w'.store) (hlog : w.log = w'.log)
    (href : ref.Placed w.store) (hb : ref.buffer < n)
    (hseen : (u.ofKind ref.kind).map (fun _ => ()) = (u'.ofKind ref.kind).map fun _ => ())
    (hu : Sound ref spec u) (hu' : Sound ref spec u') :
    SameEnd n (c.assign (.array ref) spec (.array u) w)
      (c.assign (.array ref) spec (.array u') w') := by
  have hagree : w.Agree n w' := ⟨h.agree, hlog⟩
  refine Alike.lift_bind hagree fun b _ => Alike.lift_bind hagree fun target htarget => ?_
  obtain ⟨rfl, hkind⟩ := Backend.target_eq_ok htarget
  refine Alike.lift_bind hagree fun r hr => ?_
  obtain ⟨hfits, hinput⟩ := Resolution.ofValue_fits hr
  rw [← hkind]
  have hvalues := (h.toViewOf hseen target.type).attach
  refine Alike.bind (Alike.onStore (R := fun x w₁ y w₂ => (View.Same n x w₁.store y w₂.store ∧
    (Operand.array u).toViewOf target.kind target.type w.store = .ok x w₁.store ∧
    (Operand.array u').toViewOf target.kind target.type w'.store = .ok y w₂.store) ∧
      w₁.log = w₂.log) (hvalues.mono ?_ ?_)) fun x w₁ y w₂ hx => ?_
  · exact fun x s y t hx => ⟨hx, hlog⟩
  · exact fun s t ht => ⟨ht, hlog⟩
  obtain ⟨⟨hsame, hxrun, hyrun⟩, hlog⟩ := hx
  have hagree : w₁.Agree n w₂ := ⟨hsame.agree, hlog⟩
  have hcovers := ((Operand.toViewOf_yields _ _ _ w.store).of_ok hxrun).kept.covers
  have hplaced := href.later hcovers
  refine Alike.check ?_ ?_ hagree fun hshape _ => ?_
  · rw [hsame.shows.shape_eq]
  · rw [hsame.shows.shape_eq]
  have hmode : WalkMode.assign ≠ .extract := by decide
  have hwrite := c.write_alike hsame hmode hfits hinput hplaced.toWithin hplaced.distinct hb
    (Decidable.of_not_not hshape)
    (hu.toViewOf hr (Nat.lt_of_lt_of_le hb h.agree.left) hxrun)
    (hu'.toViewOf hr (Nat.lt_of_lt_of_le hb h.agree.right) hyrun)
  refine Alike.bind (Alike.onStore (R := fun _ w₁ _ w₂ => w₁.Agree n w₂) (hwrite.mono ?_ ?_))
    fun _ w₃ _ w₄ hw => ?_
  · exact fun _ s _ t hst => ⟨hst, hlog⟩
  · exact fun s t hst => ⟨hst, hlog⟩
  · refine .ok ⟨hw.store, ?_⟩
    show w₃.log ++ _ = w₄.log ++ _
    rw [hw.log]

end Config

namespace Session

/-- The value of an assignment may share cells with the target in any way in which the overlap is
seen: what is handed over for a tensor is read before the first element is written, or has none of
the cells of the tensor, and a private copy of the value leads to the same end.  A reversed host
array is refused for a tensor. -/
theorem assign_overlapping (limit : Nat) (history : List Action)
    (hh : ∀ a ∈ history, a.Fit NewArray.Fills) {name value : String} {ref u : View}
    (href : (name, Operand.array ref) ∈ (reached limit history).named)
    (hu : (value, Operand.array u) ∈ (reached limit history).named) (c : Config) (spec : Value) :
    let w := (reached limit history).workspace
    (ref.kind = .tensor → u.kind = .host → u.isReversed = true →
      Ends (c.assign (.array ref) spec (.array u) w) (fun _ _ => False) w.Keeps) ∧
    (u.Guarded ref →
      (∀ values s', (Operand.array u).toViewOf ref.kind ref.type w.store = .ok values s' →
        ref.readsFirst values = true ∨ values.shares ref = false) ∧
      ((ref.kind = .tensor → u.kind = .host → u.isReversed = false) →
        ∀ u' s', u.copy w.store = .ok u' s' → View.Fresh w.store u' ∧
          SameEnd w.store.buffers.size (c.assign (.array ref) spec (.array u) w)
            (c.assign (.array ref) spec (.array u') { w with store := s' }))) := by
  have hplaced := placed_invariant.reached_all limit hh
  generalize reached limit history = s at *
  have href : ref.Placed s.workspace.store := hplaced _ href ref rfl
  have hu : u.Placed s.workspace.store := hplaced _ hu u rfl
  refine ⟨fun hk hhost hr => Config.assign_reversed_ends hk hhost hr, fun hguarded =>
    ⟨fun values s' hvalues => Config.handed_over hguarded href.buffer hvalues,
      fun hforward u' s' hcopy => ?_⟩⟩
  have hfresh := View.copy_fresh hcopy
  have hapart : u'.Guarded ref := .of_apart (View.not_shares_of_buffer
    (Nat.ne_of_gt (Nat.lt_of_lt_of_le href.buffer hfresh.buffer)))
  exact ⟨hfresh, Config.assign_alike (View.Same.copy hu.toWithin hcopy) rfl href href.buffer
    (View.ofKind_copy hcopy hforward) (.inl hguarded) (.inl hapart)⟩

end Session

namespace Sample

/-- A tensor, and a window onto its first three elements. -/
def shifted : List Session.Action := [
  .create "row" (.fresh
    { kind := .tensor, type := .int64, layout := .rowMajor [4], codes := [0, 1, 2, 3] }),
  .view "front" "row" (.slice .null (.whole 3) .null)]

def shiftedRow : View :=
  { kind := .tensor, type := .int64, buffer := 0, layout := .rowMajor [4] }

def shiftedFront : View :=
  { kind := .tensor, type := .int64, buffer := 0, layout := .rowMajor [3] }

/-- All but the first. -/
def tail : Value := .masks { begins := [1], ends := [0], strides := [1], endMask := 1 }

/-- Copied one after the other, the first element would take the places of all the others. -/
theorem assign_overlapping_shifted :
    let w := (Session.reached 1024 shifted).workspace
    shiftedFront.Guarded shiftedRow ∧ w.store.move 0 [0, 1, 2] 0 [1, 2, 3] =
      { buffers := #[#[0, 0, 0, 0]], limit := 1024 } ∧
    ∃ u' s' w₁ w₂, shiftedFront.copy w.store = .ok u' s' ∧
      ({} : Config).assign (.array shiftedRow) tail (.array shiftedFront) w = .ok () w₁ ∧
      ({} : Config).assign (.array shiftedRow) tail (.array u') { w with store := s' } =
        .ok () w₂ ∧
      shiftedRow.codes w₁.store = [0, 0, 1, 2] ∧ w₁.Agree 1 w₂ := by
  have hfills : ∀ a ∈ shifted, a.Fit Session.NewArray.Fills := by
    intro a ha
    simp only [shifted, List.mem_cons, List.not_mem_nil, or_false] at ha
    rcases ha with rfl | rfl
    · exact Layout.rowMajor_fills [4]
    · trivial
  have hrow : ("row", Operand.array shiftedRow) ∈ (Session.reached 1024 shifted).named :=
    List.mem_cons_of_mem _ List.mem_cons_self
  have hfront : ("front", Operand.array shiftedFront) ∈ (Session.reached 1024 shifted).named :=
    List.mem_cons_self
  have hguarded : shiftedFront.Guarded shiftedRow := by decide
  obtain ⟨w₁, hrun, hcodes⟩ : ∃ w₁, ({} : Config).assign (.array shiftedRow) tail
      (.array shiftedFront) (Session.reached 1024 shifted).workspace = .ok () w₁ ∧
      shiftedRow.codes w₁.store = [0, 0, 1, 2] := ⟨_, rfl, by decide⟩
  obtain ⟨_, hends⟩ := Session.assign_overlapping 1024 shifted hfills hrow hfront {} tail
  obtain ⟨_, hcopies⟩ := hends hguarded
  obtain ⟨u', s', hcopy⟩ : ∃ u' s',
      shiftedFront.copy (Session.reached 1024 shifted).workspace.store = .ok u' s' := ⟨_, _, rfl⟩
  obtain ⟨_, hsame⟩ := hcopies (fun _ hhost => nomatch hhost) u' s' hcopy
  obtain ⟨w₂, hrun', hagree⟩ := hsame.of_ok hrun
  exact ⟨hguarded, rfl, u', s', w₁, w₂, hcopy, hrun, hrun', hcodes, hagree⟩

/-- A host array, a tensor over its cells, and a window onto the array. -/
def wrapped : List Session.Action := [
  .engine { backend := .fixed .tensor, zeroCopy := true },
  .create "row" (.fresh
    { kind := .host, type := .int64, layout := .rowMajor [8], codes := [0, 1, 2, 3, 4, 5, 6, 7] }),
  .call (.slice "tensor" (.named "row") .ellipsis),
  .view "middle" "row" (.slice (.whole 1) (.whole 4) .null)]

/-- Every other element from the third on. -/
def evens : Value := .slice (.whole 2) .null (.whole 2)

/-- The window becomes a tensor whose storage starts elsewhere, so the overlap is not seen: its
second element is overwritten with the first before it is read. -/
theorem overlap_unseen :
    let s := Session.reached 1024 wrapped
    ∃ ref u u' s' w₁ w₂, ("tensor", Operand.array ref) ∈ s.named ∧
      ("middle", Operand.array u) ∈ s.named ∧ u.copy s.workspace.store = .ok u' s' ∧
      s.config.assign (.array ref) evens (.array u) s.workspace = .ok () w₁ ∧
      s.config.assign (.array ref) evens (.array u') { s.workspace with store := s' } =
        .ok () w₂ ∧
      ref.codes w₁.store = [0, 1, 1, 3, 1, 5, 3, 7] ∧
      ref.codes w₂.store = [0, 1, 1, 3, 2, 5, 3, 7] := by
  refine ⟨{ shiftedRow with layout := .rowMajor [8] },
    { shiftedRow with kind := .host, layout := ⟨1, [⟨3, 1⟩]⟩ }, _, _, _, _,
    List.mem_cons_of_mem _ List.mem_cons_self, List.mem_cons_self, rfl, rfl, rfl, ?_, ?_⟩
  · decide
  · decide

end Sample

end Hyperslab
