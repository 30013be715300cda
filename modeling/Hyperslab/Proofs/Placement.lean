import Hyperslab.Proofs.Aliases
import Hyperslab.Proofs.Gradient
import Hyperslab.Proofs.Sessions
import Mathlib.Data.List.Perm.Subperm

/-!
# Every named array has its elements in distinct cells

New arrays fill a buffer.  A window by index has some of the cells of its array, each
at most once, and another order of the axes has all of them; neither leaves the
buffer or meets a cell twice.  So what holds of the new arrays holds of every array
that a session names.
-/

namespace Hyperslab

open Store (Extends)

/-! ## Windows by index have some of the places -/

theorem flatMap_subperm {α β : Type} {l : List α} {f g : α → List β}
    (h : ∀ a ∈ l, (f a).Subperm (g a)) : (l.flatMap f).Subperm (l.flatMap g) := by
  induction l with
  | nil => exact List.Subperm.refl _
  | cons a l ih =>
    obtain ⟨ha, hl⟩ := List.forall_mem_cons.mp h
    rw [List.flatMap_cons, List.flatMap_cons]
    exact ha.append (ih hl)

namespace Layout

/-- The axes under an index reach some of the places, each at most once, from `o` on. -/
def Under (o : Int) (rest dims : List Dim) : Prop :=
  ∀ base, (placesFrom (base + o) rest).Subperm (placesFrom base dims)

theorem under_refl (dims : List Dim) : Under 0 dims dims := by
  intro base
  rw [Int.add_zero]

/-- An axis that visits distinct indices of another one. -/
theorem Under.cons {o p : Int} {e d : Dim} {rest dims : List Dim} (visit : Nat → Nat)
    (h : Under p rest dims) (hlt : ∀ k < e.extent, visit k < d.extent)
    (hinj : ∀ k < e.extent, ∀ j < e.extent, visit k = visit j → k = j)
    (hplace : ∀ k < e.extent, o + k * e.stride = visit k * d.stride) :
    Under (o + p) (e :: rest) (d :: dims) := by
  intro base
  have hvisits : ((List.range e.extent).map visit).Subperm (List.range d.extent) := by
    apply List.Nodup.subperm
    · refine List.Nodup.map_on (fun k hk j hj => ?_) List.nodup_range
      exact hinj k (List.mem_range.mp hk) j (List.mem_range.mp hj)
    · intro n hn
      obtain ⟨k, hk, rfl⟩ := List.mem_map.mp hn
      exact List.mem_range.mpr (hlt k (List.mem_range.mp hk))
  have hsteps : (placesFrom (base + (o + p)) (e :: rest)).Subperm
      (((List.range e.extent).map visit).flatMap fun (n : Nat) =>
        placesFrom (base + n * d.stride) dims) := by
    rw [placesFrom, List.flatMap_map]
    refine flatMap_subperm fun k hk => ?_
    have hbase : base + (o + p) + k * e.stride = base + visit k * d.stride + p := by
      rw [← hplace k (List.mem_range.mp hk)]
      omega
    rw [hbase]
    exact h _
  obtain ⟨between, hperm, hsub⟩ := hvisits
  refine hsteps.trans ?_
  exact (hperm.symm.flatMap_right _).subperm.trans (hsub.flatMap _).subperm

theorem Under.append {o : Int} {rest dims : List Dim} (h : Under o rest dims) (ds : List Dim) :
    Under o (ds ++ rest) (ds ++ dims) := by
  induction ds with
  | nil => exact h
  | cons d ds ih =>
    have hcons := ih.cons (o := 0) (e := d) (d := d) id (fun k hk => hk)
      (fun k _ j _ hkj => hkj) fun k _ => Int.zero_add _
    rwa [Int.zero_add] at hcons

theorem Under.one {o : Int} {rest dims : List Dim} (h : Under o rest dims) (stride : Int) :
    Under o (⟨1, stride⟩ :: rest) dims := by
  intro base
  rw [placesFrom_one]
  exact h base

end Layout

namespace View

open Layout (Under)

variable {v w : View} {s s' : Store}

theorem along_under {d : Dim} {item : KeyItem} {o p : Int} {first rest dims : List Dim}
    (h : v.along d item = .ok (o, first)) (hitem : item.takesAxis = true)
    (hr : Under p rest dims) : Under (o + p) (first ++ rest) (d :: dims) := by
  cases item with
  | point n =>
    unfold along at h
    dsimp only at h
    generalize (if n < 0 then (d.extent : Int) + n else n) = i at h
    split_ifs at h with _ hi
    cases h
    -- A single index is an axis of extent one, left out.
    have hone := hr.cons (o := i * d.stride) (e := ⟨1, 0⟩) (d := d) (fun _ => i.toNat)
      (fun k _ => by omega) (fun k hk j hj _ => by dsimp only at hk hj; omega)
      (fun k _ => by rw [Int.mul_zero, Int.add_zero, Int.toNat_of_nonneg hi.1])
    intro base
    have hbase := hone base
    rwa [Layout.placesFrom_one] at hbase
  | span start stop step =>
    simp only [along, except_bind_eq_ok] at h
    obtain ⟨step, _, h⟩ := h
    by_cases hstep : step.getD 1 = 0 ∨ v.kind = .tensor ∧ step.getD 1 < 0
    · rw [if_pos hstep] at h
      cases h
    rw [if_neg hstep] at h
    simp only [except_bind_eq_ok] at h
    obtain ⟨first', _, last', _, h⟩ := h
    have hfits : (Interval.ofBounds d.extent first' last' (step.getD 1)).Fits d.extent :=
      Interval.ofBounds_fits fun h0 => hstep (.inl h0)
    generalize Interval.ofBounds d.extent first' last' (step.getD 1) = i at *
    split_ifs at h
    · cases h
      intro base
      exact List.nil_subperm
    · cases h
      have hindex : ∀ k < i.size, 0 ≤ i.index k ∧ i.index k < d.extent := fun k hk =>
        hfits.index_mem (Int.natCast_nonneg k) (Int.ofNat_lt.mpr hk)
      refine hr.cons (fun k => (i.index k).toNat) (fun k hk => ?_) (fun k hk j hj hkj => ?_)
        fun k hk => ?_
      · have := hindex k hk
        omega
      · obtain ⟨hk, _⟩ := hindex k hk
        obtain ⟨hj, _⟩ := hindex j hj
        have hsame : i.index k = i.index j := by
          rw [← Int.toNat_of_nonneg hk, ← Int.toNat_of_nonneg hj, hkj]
        exact Int.ofNat.inj (Interval.index_injective hfits.step hsame)
      · rw [Int.toNat_of_nonneg (hindex k hk).1, Interval.index]
        ring
  | newAxis => cases hitem
  | ellipsis => cases hitem

theorem under_under {spare : Nat} {dims rest : List Dim} {items : List KeyItem} {o : Int}
    (h : v.under spare dims items = .ok (o, rest)) : Under o rest dims := by
  fun_induction View.under v spare dims items generalizing o rest with
  | case1 | case3 =>
    cases h
    exact Layout.under_refl _
  | case4 | case6 => cases h
  | case2 dims items ih =>
    simp only [except_bind_eq_ok] at h
    obtain ⟨⟨o', rest'⟩, hrest, h⟩ := h
    cases h
    exact (ih hrest).one 0
  | case5 dims items _ ih =>
    simp only [except_bind_eq_ok] at h
    obtain ⟨⟨o', rest'⟩, hrest, h⟩ := h
    cases h
    have happend := (ih hrest).append (dims.take spare)
    rwa [List.take_append_drop] at happend
  | case7 d dims item items hnew hdots ih =>
    simp only [except_bind_eq_ok] at h
    obtain ⟨⟨o', first⟩, halong, ⟨p, rest'⟩, hrest, h⟩ := h
    cases h
    refine along_under halong ?_ (ih hrest)
    cases item with
    | point | span => rfl
    | newAxis => exact absurd rfl hnew
    | ellipsis => exact absurd rfl hdots

theorem window_subperm {items : List KeyItem} (h : v.window items = .ok w) :
    w.places.Subperm v.places := by
  simp only [window, except_bind_eq_ok, except_pure_eq_ok] at h
  obtain ⟨_, _, ⟨o, dims⟩, hunder, rfl⟩ := h
  show List.Subperm (Layout.places ⟨v.layout.offset + o, dims⟩) v.layout.places
  rw [Layout.places_eq_placesFrom, Layout.places_eq_placesFrom]
  exact under_under hunder v.layout.offset

/-! ## Another order of the axes has all the places -/

theorem axisNumbers_spec {seen ns : List Nat} {order : List Int}
    (h : v.axisNumbers seen order = .ok ns) : ns.length = order.length ∧
      (∀ n ∈ ns, n < v.layout.rank ∧ n ∉ seen) ∧ ns.Nodup := by
  induction order generalizing seen ns with
  | nil =>
    cases h
    refine ⟨rfl, ?_, List.nodup_nil⟩
    intro n hn
    cases hn
  | cons i order ih =>
    simp only [axisNumbers] at h
    generalize (if i < 0 then (v.layout.rank : Int) + i else i) = n at h
    by_cases hrange : n < 0 ∨ (v.layout.rank : Int) ≤ n
    · rw [if_pos hrange] at h
      cases h
    rw [if_neg hrange] at h
    by_cases hseen : seen.contains n.toNat = true
    · rw [if_pos hseen] at h
      cases h
    rw [if_neg hseen] at h
    simp only [except_bind_eq_ok, except_pure_eq_ok] at h
    obtain ⟨ns', hns, rfl⟩ := h
    obtain ⟨hlen, hmem, hnodup⟩ := ih hns
    refine ⟨by rw [List.length_cons, List.length_cons, hlen], ?_, ?_⟩
    · intro m hm
      rcases List.mem_cons.mp hm with rfl | hm
      · exact ⟨by omega, fun hm => hseen (List.contains_iff_mem.mpr hm)⟩
      · exact ⟨(hmem m hm).1, fun hs => (hmem m hm).2 (List.mem_cons_of_mem _ hs)⟩
    · exact List.nodup_cons.mpr ⟨fun hm => (hmem _ hm).2 List.mem_cons_self, hnodup⟩

theorem filterMap_getElem?_range {α : Type} (l : List α) :
    (List.range l.length).filterMap (l[·]?) = l := by
  induction l with
  | nil => rfl
  | cons a l ih =>
    rw [List.length_cons, List.range_succ_eq_map, List.filterMap_cons_some (by rfl),
      List.filterMap_map]
    exact congrArg (a :: ·) ih

theorem permute_perm {l : Layout} {order : List Nat} (h : order.Perm (List.range l.rank)) :
    (l.permute order).places.Perm l.places := by
  rw [Layout.places_eq_placesFrom, Layout.places_eq_placesFrom]
  apply Layout.placesFrom_perm
  show (order.filterMap (l.dims[·]?)).Perm l.dims
  conv_rhs => rw [← filterMap_getElem?_range l.dims]
  exact h.filterMap _

theorem transpose_perm {order : List Int} (h : v.transpose order = .ok w) :
    w.places.Perm v.places := by
  simp only [transpose] at h
  by_cases hlen : order.length ≠ v.layout.rank
  · rw [if_pos hlen] at h
    cases h
  rw [if_neg hlen] at h
  simp only [except_bind_eq_ok, except_pure_eq_ok] at h
  obtain ⟨ns, hns, rfl⟩ := h
  obtain ⟨hcount, hmem, hnodup⟩ := axisNumbers_spec hns
  apply permute_perm
  apply List.Subperm.perm_of_length_le
  · apply hnodup.subperm
    intro n hn
    exact List.mem_range.mpr (hmem n hn).1
  · rw [List.length_range]
    omega

/-! ## Distinct cells -/

/-- The elements have distinct cells. -/
structure Placed (v : View) (s : Store) : Prop extends v.Within s where
  distinct : v.places.Nodup

namespace Placed

theorem later (h : v.Placed s) (hs : s.Covers s') : v.Placed s' where
  buffer := Nat.lt_of_lt_of_le h.buffer hs.count
  cells p hp := hs.hasCell (h.cells p hp)
  distinct := h.distinct

theorem of_subperm (h : v.Placed s) (hb : w.buffer = v.buffer) (hw : w.places.Subperm v.places) :
    w.Placed s where
  buffer := hb ▸ h.buffer
  cells p hp := hb ▸ h.cells p (hw.subset hp)
  distinct := by
    obtain ⟨between, hperm, hsub⟩ := hw
    exact hperm.nodup_iff.mp (h.distinct.sublist hsub)

theorem of_fields (h : v.Placed s) (hb : w.buffer = v.buffer) (hl : w.layout = v.layout) :
    w.Placed s :=
  h.of_subperm hb (by rw [places, hl]; exact List.Subperm.refl _)

end Placed

theorem create_placed {kind : ArrayKind} {type : ElementType} {l : Layout} {codes : List Int}
    (hl : l.Fills) (h : create kind type l codes s = .ok w s') : w.Placed s' := by
  rw [create_eq] at h
  cases h
  have hcovers := (s.grow l.size).covers_scatter s.buffers.size l.places codes
  refine ⟨⟨Nat.lt_of_lt_of_le ?_ hcovers.count, fun p hp => hcovers.hasCell ?_⟩, hl.nodup⟩
  · rw [Store.grow, Array.size_push]
    exact Nat.lt_succ_self _
  · obtain ⟨h0, hlt⟩ := hl.mem_places_iff.mp hp
    exact Store.hasCell_grow s l.size h0 hlt

end View

theorem Operand.toView_placed {o : Operand} {kind : ArrayKind} {u : View} {s s' : Store}
    (ho : ∀ v ∈ o.view?, v.Placed s) (h : o.toView kind s = .ok u s') : u.Placed s' := by
  cases o with
  | array v =>
    rw [toView, ofExcept_eq_ok] at h
    obtain ⟨h, rfl⟩ := h
    obtain ⟨writeable, _, rfl, _⟩ := View.ofKind_eq_ok h
    exact (ho v rfl).of_fields rfl rfl
  | value v =>
    simp only [toView, created, bind_eq_ok, ofExcept_eq_ok] at h
    obtain ⟨l, _, ⟨_, rfl⟩, h⟩ := h
    exact View.create_placed (Layout.rowMajor_fills l.shape) h

namespace Config

variable {c : Config} {o : Operand} {spec : Value} {out : View} {w w' : Workspace}

theorem slice_placed (ho : ∀ v ∈ o.view?, v.Placed w.store)
    (h : c.slice o spec w = .ok out w') : out.Placed w'.store := by
  obtain ⟨b, source, s₁, r, route, _, hsource, hr, hroute, hmade, _⟩ := slice_eq_ok h
  have hplaced := Operand.toView_placed ho hsource
  obtain ⟨hfits, hshape⟩ := Resolution.ofValue_fits hr
  have hserves := route_serves hroute
  obtain ⟨_, hshow⟩ := extract_shows hplaced.toWithin hfits hshape hserves hmade
  refine ⟨hshow.within, ?_⟩
  by_cases hb : c.Borrowing route
  · rw [(extract_borrows hb hfits hshape hserves hmade).places]
    exact Resolution.nodup_selected_places hfits hshape hplaced.distinct
  · exact (extract_fresh hb hmade).fills.nodup

theorem grad_placed {shape : Operand} (h : c.grad shape spec o w = .ok out w') :
    out.Placed w'.store := by
  obtain ⟨input, b, seen, s₁, r, s, x, _, _, _, _, _, hzeros, hwrite, _⟩ := grad_stages h
  obtain ⟨rfl, _, hshow⟩ := View.zeros_spec hzeros
  have hplaced : View.Placed _ s := ⟨hshow.within, (Layout.rowMajor_fills input).nodup⟩
  exact hplaced.later ((c.write_ends _ r .gradient seen s).of_ok hwrite).covers

end Config

namespace Session

/-- The new array has the cells of a buffer, each for one element. -/
def NewArray.Fills (a : NewArray) : Prop := a.layout.Fills

theorem placed_invariant : Invariant View.Placed NewArray.Fills where
  later hs h := h.later hs
  make {a v s s'} hf h := by
    simp only [NewArray.make, bind_eq_ok, pure_eq_ok] at h
    obtain ⟨w, _, hw, rfl, rfl⟩ := h
    exact (View.create_placed hf hw).of_fields rfl rfl
  window hv h := hv.of_subperm (View.window_buffer h) (View.window_subperm h)
  transpose hv h := hv.of_subperm (View.transpose_buffer h) (View.transpose_perm h).subperm
  slice ho h := Config.slice_placed ho h
  grad _ h := Config.grad_placed h

end Session

end Hyperslab
