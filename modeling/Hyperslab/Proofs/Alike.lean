import Hyperslab.Proofs.Success

/-!
# Two runs side by side

Two runs are alike if they come to the same end: both return, with what they give in
some relation, or both stop at the same fault.  The rules follow the two runs one step
at a time.  Operations on arrays with the same elements are alike, wherever the elements
lie, as long as the memories agree on the buffers that were there at the start.
-/

namespace Hyperslab

open Store (Extends Updates)

variable {ε σ α β α' β' : Type} {R : α → σ → β → σ → Prop} {F : σ → σ → Prop} {s t : σ}

/-- Both runs return, with values and states in the relation `R`, or both stop at the same fault,
in states in the relation `F`. -/
inductive Alike (R : α → σ → β → σ → Prop) (F : σ → σ → Prop) :
    EStateM.Result ε σ α → EStateM.Result ε σ β → Prop
  | ok {a : α} {s : σ} {b : β} {t : σ} (h : R a s b t) : Alike R F (.ok a s) (.ok b t)
  | error {e : ε} {s t : σ} (h : F s t) : Alike R F (.error e s) (.error e t)

namespace Alike

variable {R' : α' → σ → β' → σ → Prop} {x : EStateM.Result ε σ α} {y : EStateM.Result ε σ β}

theorem mono {R₁ : α → σ → β → σ → Prop} {F₁ : σ → σ → Prop} (h : Alike R F x y)
    (hR : ∀ a s b t, R a s b t → R₁ a s b t) (hF : ∀ s t, F s t → F₁ s t) : Alike R₁ F₁ x y := by
  cases h with
  | ok h => exact .ok (hR _ _ _ _ h)
  | error h => exact .error (hF _ _ h)

/-- What is known of a run that returned may be added. -/
theorem attach (h : Alike R F x y) :
    Alike (fun a s b t => R a s b t ∧ x = .ok a s ∧ y = .ok b t) F x y := by
  cases h with
  | ok h => exact .ok ⟨h, rfl, rfl⟩
  | error h => exact .error h

/-! ## Step by step -/

theorem bind {x : EStateM ε σ α} {y : EStateM ε σ β} {f : α → EStateM ε σ α'}
    {g : β → EStateM ε σ β'} (h : Alike R F (x s) (y t))
    (hf : ∀ a s b t, R a s b t → Alike R' F (f a s) (g b t)) :
    Alike R' F ((x >>= f) s) ((y >>= g) t) := by
  show Alike R' F (EStateM.bind x f s) (EStateM.bind y g t)
  unfold EStateM.bind
  generalize x s = first, y t = second at h
  cases h with
  | ok h => exact hf _ _ _ _ h
  | error h => exact .error h

theorem lift_bind {x : Except ε α} {f : α → EStateM ε σ α'} {g : α → EStateM ε σ β'}
    (hF : F s t) (hf : ∀ a, x = .ok a → Alike R' F (f a s) (g a t)) :
    Alike R' F (((ofExcept x : EStateM ε σ α) >>= f) s)
      (((ofExcept x : EStateM ε σ α) >>= g) t) := by
  cases x with
  | ok a => exact hf a rfl
  | error e => exact .error hF

theorem read_bind {f : σ → EStateM ε σ α'} {g : σ → EStateM ε σ β'}
    (h : Alike R' F (f s s) (g t t)) :
    Alike R' F (((get : EStateM ε σ σ) >>= f) s) (((get : EStateM ε σ σ) >>= g) t) := h

theorem check {p q : Prop} [Decidable p] [Decidable q] {e e' : ε} {f : PUnit → EStateM ε σ α'}
    {g : PUnit → EStateM ε σ β'} (hpq : p ↔ q) (he : e = e') (hF : F s t)
    (hf : ¬p → ¬q → Alike R' F (f ⟨⟩ s) (g ⟨⟩ t)) :
    Alike R' F ((if p then throw e >>= f else f ⟨⟩) s)
      ((if q then throw e' >>= g else g ⟨⟩) t) := by
  subst he
  by_cases hp : p
  · rw [if_pos hp, if_pos (hpq.mp hp)]
    exact .error hF
  · have hq : ¬q := fun hq => hp (hpq.mpr hq)
    rw [if_neg hp, if_neg hq]
    exact hf hp hq

theorem onStore {x : Memory α'} {y : Memory β'} {w w' : Workspace}
    {R : α' → Workspace → β' → Workspace → Prop} {F : Workspace → Workspace → Prop}
    (h : Alike (fun a s b t => R a { w with store := s } b { w' with store := t })
      (fun s t => F { w with store := s } { w' with store := t }) (x w.store) (y w'.store)) :
    Alike R F (Workspace.onStore x w) (Workspace.onStore y w') := by
  unfold Workspace.onStore
  generalize x w.store = first, y w'.store = second at h
  cases h with
  | ok h => exact .ok h
  | error h => exact .error h

end Alike

/-! ## Memories that agree -/

/-- The first `n` buffers of two memories have the same cells, and both have the same limit. -/
structure Store.Agree (n : Nat) (s t : Store) : Prop where
  left : n ≤ s.buffers.size
  right : n ≤ t.buffers.size
  extent : ∀ b < n, s.extent b = t.extent b
  read : ∀ b < n, ∀ p, s.read b p = t.read b p
  limit : s.limit = t.limit

namespace Store.Agree

variable {n : Nat} {s s' t t' : Store}

theorem refl (h : n ≤ s.buffers.size) : s.Agree n s :=
  ⟨h, h, fun _ _ => rfl, fun _ _ _ => rfl, rfl⟩

theorem symm (h : s.Agree n t) : t.Agree n s :=
  ⟨h.right, h.left, fun b hb => (h.extent b hb).symm, fun b hb p => (h.read b hb p).symm,
    h.limit.symm⟩

/-- New buffers on one side make no difference. -/
theorem grow_left (h : s.Agree n t) (hs : Extends s s') : s'.Agree n t where
  left := Nat.le_trans h.left hs.count
  right := h.right
  extent b hb := (hs.extent b (Nat.lt_of_lt_of_le hb h.left)).trans (h.extent b hb)
  read b hb p := (hs.read b (Nat.lt_of_lt_of_le hb h.left) p).trans (h.read b hb p)
  limit := hs.limit.trans h.limit

theorem grow (h : s.Agree n t) (hs : Extends s s') (ht : Extends t t') : s'.Agree n t' :=
  ((h.grow_left hs).symm.grow_left ht).symm

/-- The same codes at the same places make no difference. -/
theorem updates {buffer : Nat} {places codes : List Int} (h : s.Agree n t)
    (hs : Updates s s' buffer places codes) (ht : Updates t t' buffer places codes) :
    s'.Agree n t' where
  left := Nat.le_trans h.left hs.count
  right := Nat.le_trans h.right ht.count
  extent b hb := by
    rw [hs.extent b (Nat.lt_of_lt_of_le hb h.left), ht.extent b (Nat.lt_of_lt_of_le hb h.right)]
    exact h.extent b hb
  read b hb p := by
    by_cases hp : b = buffer ∧ p ∈ places
    · obtain ⟨rfl, hp⟩ := hp
      exact List.map_inj_left.mp (hs.written.trans ht.written.symm) p hp
    · have hother : b = buffer → p ∉ places := fun hb hm => hp ⟨hb, hm⟩
      rw [hs.frame b (Nat.lt_of_lt_of_le hb h.left) p hother,
        ht.frame b (Nat.lt_of_lt_of_le hb h.right) p hother]
      exact h.read b hb p
  limit := by rw [hs.limit, ht.limit, h.limit]

theorem scatter {buffer : Nat} {places codes : List Int} (h : s.Agree n t) (hb : buffer < n)
    (hnodup : places.Nodup) (hcells : ∀ p ∈ places, s.HasCell buffer p)
    (hlen : codes.length = places.length) :
    (s.scatter buffer places codes).Agree n (t.scatter buffer places codes) := by
  refine h.updates (scatter_updates hnodup hcells hlen)
    (scatter_updates hnodup (fun p hp => ?_) hlen)
  rw [HasCell, ← h.extent buffer hb]
  exact hcells p hp

end Store.Agree

/-- The log is the same as well. -/
structure Workspace.Agree (n : Nat) (w w' : Workspace) : Prop where
  store : w.store.Agree n w'.store
  log : w.log = w'.log

/-! ## Arrays with the same elements -/

namespace View

variable {n : Nat} {x y : View} {s t : Store}

/-- An array of the same kind that shows the same, in memories that agree. -/
structure Same (n : Nat) (x : View) (s : Store) (y : View) (t : Store) : Prop where
  agree : s.Agree n t
  kind_eq : x.kind = y.kind
  within : x.Within s
  shows : y.Shows t x.type x.shape (x.codes s)

/-- Both arrays show what one of them showed before. -/
theorem Same.of_shows {x' y' : View} {s' t' : Store} {type : ElementType} {shape : Shape}
    {codes : List Int} (hagree : s'.Agree n t') (hkind : x'.kind = y'.kind)
    (hx : x'.Shows s' type shape codes) (hy : y'.Shows t' type shape codes) :
    Same n x' s' y' t' := by
  refine ⟨hagree, hkind, hx.within, ?_⟩
  rw [hx.type_eq, hx.shape_eq, hx.codes_eq]
  exact hy

theorem Same.size_eq (h : Same n x s y t) : x.size = y.size :=
  congrArg Shape.size h.shows.shape_eq.symm

/-- There is memory for both new arrays, or for neither. -/
theorem make_alike {kind : ArrayKind} {type : ElementType} {l : Layout} {codes : List Int}
    (h : s.Agree n t) (hl : l.Fills) (hlen : codes.length = l.size) :
    Alike (Same n) (Store.Agree n) (make kind type l codes s) (make kind type l codes t) := by
  unfold make
  apply Alike.read_bind
  rw [h.limit]
  refine Alike.lift_bind h fun _ _ => ?_
  obtain ⟨hsext, hsshow⟩ := create_shows (create_eq kind type l codes s) hl hlen
  obtain ⟨htext, htshow⟩ := create_shows (create_eq kind type l codes t) hl hlen
  exact .ok (Same.of_shows (h.grow hsext htext) rfl hsshow htshow)

/-- The elements brought to another type. -/
theorem Same.ofType (h : Same n x s y t) (type : ElementType) :
    Alike (Same n) (Store.Agree n) (x.ofType type s) (y.ofType type t) := by
  unfold View.ofType
  rw [h.shows.type_eq]
  split_ifs with ht
  · exact .ok h
  · have hlen : ((x.codes s).map (x.type.convert type)).length =
        (Layout.rowMajor x.shape).size := by
      rw [List.length_map, length_codes, Layout.size, Layout.shape_rowMajor]
    apply Alike.read_bind
    rw [h.shows.codes_eq, h.shows.shape_eq, ← h.kind_eq]
    refine (make_alike h.agree (Layout.rowMajor_fills x.shape) hlen).bind fun x' s' y' t' h' => ?_
    exact .ok ⟨h'.agree, h'.kind_eq, ⟨h'.within.buffer, h'.within.cells⟩,
      h'.shows.of_fields rfl rfl rfl⟩

/-- The elements in another shape that differs by axes of extent one. -/
theorem Same.reshape {shape : Shape} (h : Same n x s y t)
    (hone : shape.filter (· ≠ 1) = x.shape.filter (· ≠ 1)) :
    Alike (fun x' s' y' t' => Same n x' s' y' t' ∧ x.From s x' ∧ y.From t y') (Store.Agree n)
      (x.reshape shape s) (y.reshape shape t) := by
  by_cases hrank : x.kind = .host ∧ maxAxes < shape.length
  · have hrank' : y.kind = .host ∧ maxAxes < shape.length := h.kind_eq ▸ hrank
    rw [View.reshape, if_pos hrank, View.reshape, if_pos hrank']
    exact .error h.agree
  have hlen : ∀ v : View, v.kind = x.kind → v.kind = .host → shape.length ≤ maxAxes :=
    fun v hv hk => Nat.not_lt.mp fun hlt => hrank ⟨hv.symm.trans hk, hlt⟩
  obtain ⟨l, hx, _⟩ := reshape_units s (hlen x rfl) hone
  obtain ⟨m, hy, _⟩ := reshape_units t (hlen y h.kind_eq.symm) (h.shows.shape_eq ▸ hone)
  obtain ⟨hsext, hxshow⟩ := reshape_shows h.within hx
  obtain ⟨htext, hyshow⟩ := reshape_shows h.shows.within hy
  rw [h.shows.type_eq, h.shows.codes_eq] at hyshow
  rw [hx, hy]
  exact .ok ⟨Same.of_shows h.agree h.kind_eq hxshow hyshow, reshape_from hx, reshape_from hy⟩

/-! ## Writes of the same elements -/

variable {v : View} {places : List Int}

theorem Same.codesFrom_eq (h : Same n x s y t) : v.codesFrom x s = v.codesFrom y t := by
  rw [codesFrom, codesFrom, h.shows.type_eq, h.shows.codes_eq]

theorem Same.transfer (h : Same n x s y t) (hv : v.Within s) (hb : v.buffer < n)
    (hsub : ∀ p ∈ places, p ∈ v.places) (hnodup : places.Nodup) (hlen : x.size = places.length)
    (hx : x.Steady v places) (hy : y.Steady v places) :
    (v.transfer places x s).Agree n (v.transfer places y t) := by
  rw [transfer_eq_scatter hx hsub hlen, transfer_eq_scatter hy hsub (h.size_eq ▸ hlen),
    ← h.codesFrom_eq]
  refine h.agree.scatter hb hnodup (fun p hp => hv.cells p (hsub p hp)) ?_
  rw [length_codesFrom, hlen]

theorem Same.writeWindow {is : List Interval} {extents : Shape} (h : Same n x s y t)
    (hv : v.Within s) (hb : v.buffer < n)
    (hsub : ∀ p ∈ (v.layout.window is extents).places, p ∈ v.places)
    (hnodup : (v.layout.window is extents).places.Nodup)
    (hsize : x.size = (v.layout.window is extents).size)
    (hx : x.Steady v (v.layout.window is extents).places)
    (hy : y.Steady v (v.layout.window is extents).places) :
    Alike (fun _ s' _ t' => s'.Agree n t') (Store.Agree n) (v.writeWindow is extents x s)
      (v.writeWindow is extents y t) := by
  have hforward : v.forwardWindow s is extents = v.forwardWindow t is extents := by
    rw [forwardWindow, forwardWindow, h.agree.extent v.buffer hb]
  unfold View.writeWindow
  apply Alike.read_bind
  cases v.kind with
  | host =>
    refine Alike.lift_bind h.agree fun l hl => Alike.check Iff.rfl rfl h.agree fun _ _ => .ok ?_
    obtain rfl := signedWindow_eq_ok hl
    have hplaces := Layout.length_places (v.layout.window is extents)
    exact h.transfer hv hb hsub hnodup (hsize.trans hplaces.symm) hx hy
  | tensor =>
    dsimp only
    rw [hforward]
    refine Alike.lift_bind h.agree fun f hf => Alike.check Iff.rfl rfl h.agree fun _ _ => ?_
    obtain rfl := forwardWindow_eq_ok hf
    generalize v.layout.window is extents = window at *
    have hperm := ForwardWindow.places_perm window
    have hplaces : (ForwardWindow.ofLayout window).layout.places.length = window.size :=
      hperm.length_eq.trans (Layout.length_places window)
    have hforwardSub : ∀ p ∈ (ForwardWindow.ofLayout window).layout.places, p ∈ v.places :=
      fun p hp => hsub p (hperm.mem_iff.mp hp)
    have hforwardNodup := hperm.nodup_iff.mpr hnodup
    split_ifs with hflips
    · refine .ok ?_
      rw [← h.codesFrom_eq]
      refine h.agree.scatter hb hforwardNodup (fun p hp => hv.cells p (hforwardSub p hp)) ?_
      rw [ForwardWindow.length_turn, hplaces]
    · rw [← ForwardWindow.layout_none (l := window) (Bool.not_eq_true _ ▸ hflips)] at hx hy
      exact .ok (h.transfer hv hb hforwardSub hforwardNodup (hsize.trans hplaces.symm) hx hy)

end View

/-- Writes of the same elements, which are read in time, come to the same end. -/
theorem Config.write_alike {n : Nat} {x y v : View} {s t : Store} {r : Resolution} {mode : WalkMode}
    (c : Config) (h : View.Same n x s y t) (hmode : mode ≠ .extract) (hf : r.Fits)
    (hr : r.inputShape = v.shape) (hv : v.Within s) (hd : v.places.Nodup) (hb : v.buffer < n)
    (hshape : x.shape = r.finalShape) (hx : x.Steady v (r.selected.map v.layout.placeAt))
    (hy : y.Steady v (r.selected.map v.layout.placeAt)) :
    Alike (fun _ s' _ t' => s'.Agree n t') (Store.Agree n) (c.write v r mode x s)
      (c.write v r mode y t) := by
  have hone : r.processingShape.filter (· ≠ 1) = x.shape.filter (· ≠ 1) := by
    rw [hshape, Resolution.filter_finalShape hf]
  have hbs := Nat.lt_of_lt_of_le hb h.agree.left
  have hbt := Nat.lt_of_lt_of_le hb h.agree.right
  unfold write
  split_ifs with haxes hsize
  · have haxes := List.isEmpty_iff.mp haxes
    have hwhole : v.shape = r.processingShape := by
      rw [← hr, Resolution.inputShape, Resolution.processingShape, haxes]
      rfl
    have hidentity := Resolution.isIdentity_of_rank_zero (List.length_eq_zero_iff.mpr haxes)
    have hplaces : v.places = v.shape.indices.map v.layout.placeAt := Layout.places_eq v.layout
    rw [Resolution.selected_identity hidentity, hr, ← hplaces] at hx hy
    unfold View.writeAll
    rw [← hwhole] at hone
    refine ((h.reshape hone).attach).bind fun x' s' y' t' hsame => .ok ?_
    obtain ⟨⟨hsame, hxfrom, hyfrom⟩, hxrun, _⟩ := hsame
    obtain ⟨hext, hshow⟩ := View.reshape_shows h.within hxrun
    refine hsame.transfer (hv.extends hext) hb (fun p hp => hp) hd ?_ (hx.follow hbs hxfrom)
      (hy.follow hbt hyfrom)
    rw [hshow.size_eq, View.places, Layout.length_places]
    rfl
  · have hplaces := Resolution.places_window hr
    refine Alike.bind (R := fun _ s' _ t' => s'.Agree n t') ?_ fun _ _ _ _ h => .ok h
    unfold Resolution.walk Walker.walk
    refine Alike.lift_bind h.agree fun w _ => Alike.check Iff.rfl rfl h.agree fun _ _ => ?_
    cases mode with
    | extract => exact absurd rfl hmode
    | gradient | assign =>
      refine ((h.reshape hone).attach).bind fun x' s' y' t' hsame => ?_
      obtain ⟨⟨hsame, hxfrom, hyfrom⟩, hxrun, _⟩ := hsame
      obtain ⟨hext, hshow⟩ := View.reshape_shows h.within hxrun
      refine (hsame.writeWindow (hv.extends hext) hb ?_ ?_ ?_ ?_ ?_).bind fun _ _ _ _ h => .ok h
      · rw [hplaces]
        exact fun p hp => Resolution.selected_subset_places hf hr hp
      · rw [hplaces]
        exact Resolution.nodup_selected_places hf hr hd
      · rw [hshow.size_eq, Layout.size, Resolution.shape_window hr]
      · rw [hplaces]
        exact hx.follow hbs hxfrom
      · rw [hplaces]
        exact hy.follow hbt hyfrom
  · exact .ok h.agree

end Hyperslab
