import Hyperslab.Proofs.Aliases
import Hyperslab.Proofs.Writes

/-!
# Assignments

An assignment is a write to an array that the caller has.  What a slice reads back
afterwards and what an assignment of a slice does follow from what writes do.
-/

namespace Hyperslab

open Store (Extends Updates)

theorem Backend.target_eq_ok {b : Backend} {v w : View} (h : b.target (.array v) = .ok w) :
    w = v ∧ v.kind = b.kind := by
  unfold Backend.target at h
  dsimp only at h
  split_ifs at h with hkind
  cases h
  exact ⟨rfl, Decidable.of_not_not hkind⟩

theorem Operand.toViewOf_array {kind : ArrayKind} {u w : View} {type : ElementType} {s s' : Store}
    (h : (Operand.array u).toViewOf kind type s = .ok w s') :
    ∃ seen, u.ofKind kind = .ok seen ∧ seen.ofType type s = .ok w s' := by
  simp only [toViewOf, bind_eq_ok, ofExcept_eq_ok] at h
  obtain ⟨seen, _, ⟨hseen, rfl⟩, h⟩ := h
  exact ⟨seen, hseen, h⟩

/-- An array of the kind and the type that are wanted is taken as it is. -/
theorem Operand.toViewOf_self (u : View) (s : Store) :
    (Operand.array u).toViewOf u.kind u.type s = .ok u s := by
  refine bind_eq_ok.mpr ⟨u, s, ofExcept_returns u.ofKind_self s, ?_⟩
  rw [View.ofType, if_pos rfl]
  rfl

namespace Config

variable {c : Config} {v u : View} {spec : Value} {r : Resolution} {w w' : Workspace}

/-- The stages of an assignment. -/
theorem assign_stages {target value : Operand} (h : c.assign target spec value w = .ok () w') :
    ∃ b ref r values s₁ x, Backend.choose c.backend c.device [target] = .ok b ∧
      b.target target = .ok ref ∧ Resolution.ofValue ref.shape spec = .ok r ∧
      value.toViewOf b.kind ref.type w.store = .ok values s₁ ∧ values.shape = r.finalShape ∧
      c.write ref r .assign values s₁ = .ok x w'.store ∧
      w'.log = w.log ++ [c.entry .assign r (some ⟨writeRoute r, b, ref.type.itemSize⟩)] := by
  simp only [assign, bind_eq_ok, ofExcept_eq_ok, onStore_eq_ok, guard_eq_ok, record_eq_ok] at h
  obtain ⟨b, _, ⟨hb, rfl⟩, ref, _, ⟨href, rfl⟩, r, _, ⟨hr, rfl⟩, values, _,
    ⟨s₁, hvalues, rfl⟩, hshape, x, _, ⟨_, hwrite, rfl⟩, rfl⟩ := h
  exact ⟨b, ref, r, values, s₁, x, hb, href, hr, hvalues, Decidable.of_not_not hshape, hwrite, rfl⟩

/-- The values of an assignment are what they were before the first element was written, if the
guard sees that they share cells with the target, or they have the very cells selected. -/
def Sound (v : View) (spec : Value) (u : View) : Prop :=
  u.Guarded v ∨ ∀ r, Resolution.ofValue v.shape spec = .ok r → v.Borrows r u

theorem Sound.steady {seen : View} (h : Sound v spec u) (hseen : u.ofKind v.kind = .ok seen)
    (hr : Resolution.ofValue v.shape spec = .ok r) :
    seen.Steady v (r.selected.map v.layout.placeAt) := by
  rcases h with hguarded | hborrows
  · exact (hguarded.ofKind hseen).steady (View.ofKind_same hseen).1 _
  · obtain ⟨_, _, rfl, _⟩ := View.ofKind_eq_ok hseen
    obtain ⟨hbuffer, hplaces⟩ := hborrows r hr
    exact .inr (.inr ⟨hbuffer, hplaces⟩)

theorem slice_sound {out : View} (hv : v.buffer < w.store.buffers.size)
    (h : c.slice (.array v) spec w = .ok out w') : Sound v spec out := by
  by_cases hborrows : ∀ r, Resolution.ofValue v.shape spec = .ok r → v.Borrows r out
  · exact .inr hborrows
  · push Not at hborrows
    obtain ⟨r, hr, hborrows⟩ := hborrows
    have hfresh := (slice_borrows_or_fresh hr h).resolve_left hborrows
    have hne : v.buffer ≠ out.buffer := Nat.ne_of_lt (Nat.lt_of_lt_of_le hv hfresh.buffer)
    exact .inl (.of_apart (View.not_shares_of_buffer hne.symm))

/-- An assignment is a write of the elements of the value, brought to the type of the target. -/
theorem assign_eq_ok (hv : v.Within w.store) (hd : v.places.Nodup) (hu : u.Within w.store)
    (hsound : Sound v spec u) (h : c.assign (.array v) spec (.array u) w = .ok () w') :
    ∃ b r values s, Backend.choose c.backend c.device [.array v] = .ok b ∧
      b.target (.array v) = .ok v ∧ Resolution.ofValue v.shape spec = .ok r ∧
      u.shape = r.finalShape ∧ values.kind = b.kind ∧ Extends w.store s ∧
      values.codes s = (u.codes w.store).map (u.type.convert v.type) ∧
      c.Writes v r values s w'.store := by
  obtain ⟨b, target, r, values, s, x, hb, htarget, hr, hvalues, hshape, hwrite, _⟩ :=
    assign_stages h
  obtain ⟨rfl, hkind⟩ := Backend.target_eq_ok htarget
  obtain ⟨seen, hseen, hvalues⟩ := Operand.toViewOf_array hvalues
  obtain ⟨hfits, hinput⟩ := Resolution.ofValue_fits hr
  have hsteady := (hsound.steady (hkind ▸ hseen) hr).ofType hv.buffer hvalues
  obtain ⟨writeable, start, rfl, _⟩ := View.ofKind_eq_ok hseen
  obtain ⟨hvkind, hext, hshow⟩ := View.ofType_shows (hu.ofKind b.kind writeable start) hvalues
  exact ⟨b, r, values, s, hb, htarget, hr, hshow.shape_eq.symm.trans hshape, hvkind, hext,
    hshow.codes_eq, hfits, hinput, hv.extends hext, hd, hshow.within, hshow.type_eq, hshape,
    hsteady, .assign, x, by decide, hwrite⟩

/-- An assignment of what a slice shows changes nothing. -/
theorem assign_slice_extends {c' : Config} {out : View} {w₁ w₂ : Workspace}
    (hv : v.Within w.store) (hd : v.places.Nodup)
    (hslice : c.slice (.array v) spec w = .ok out w₁)
    (hassign : c'.assign (.array v) spec (.array out) w₁ = .ok () w₂) :
    Extends w.store w₂.store := by
  obtain ⟨r, hr, hext, hshow⟩ := slice_shows hv hslice
  obtain ⟨b, r', values, s, _, _, hr', _, _, hext', hvalues, hwrites⟩ := assign_eq_ok
    (hv.extends hext) hd hshow.within (slice_sound hv.buffer hslice) hassign
  obtain rfl : r = r' := Except.ok.inj (hr.symm.trans hr')
  have hall := hext.trans hext'
  have hupd : Updates s w₂.store v.buffer (r.selected.map v.layout.placeAt)
      (values.codes s) := hwrites.updates
  have hsame : values.codes s = s.gather v.buffer (r.selected.map v.layout.placeAt) := by
    rw [hvalues, hshow.type_eq, View.convert_self, hall.gather hv.buffer, hshow.codes_eq,
      Store.gather, List.map_map]
    rfl
  rw [hsame] at hupd
  exact hall.trans hupd.extends_same

/-- What a slice shows after an assignment can be assigned in its turn. -/
theorem assign_slice_returns {out : View} {w₁ : Workspace} (hv : v.Within w.store)
    (hd : v.places.Nodup) (hu : u.Within w.store) (hsound : Sound v spec u)
    (h : c.assign (.array v) spec (.array u) w = .ok () w')
    (hslice : c.slice (.array v) spec w' = .ok out w₁) :
    ∃ x w₂, c.assign (.array v) spec (.array out) w₁ = .ok x w₂ := by
  obtain ⟨b, r, values, s, hb, htarget, hr, _, hvalues, hext, _, hwrites⟩ :=
    assign_eq_ok hv hd hu hsound h
  have hupd := hext.updates hwrites.updates
  have hv' := hv.updates hupd
  obtain ⟨r', hr', hext', hshow⟩ := slice_shows hv' hslice
  obtain rfl : r = r' := Except.ok.inj (hr.symm.trans hr')
  have hkind : out.kind = b.kind := slice_kind hb hslice
  have hseen : (Operand.array out).toViewOf b.kind v.type w₁.store = .ok out w₁.store := by
    rw [← hkind, ← hshow.type_eq]
    exact Operand.toViewOf_self out w₁.store
  have hextent : w₁.store.extent v.buffer = s.extent v.buffer := by
    rw [hext'.extent v.buffer hv'.buffer, hwrites.updates.extent v.buffer hwrites.within.buffer]
  have hmode : WalkMode.assign ≠ .extract := by decide
  obtain ⟨x, t, hwrite⟩ := hwrites.write_returns hmode hextent (hkind.trans hvalues.symm)
    hshow.shape_eq
  unfold assign
  exact bind_returns (ofExcept_returns hb w₁) (bind_returns (ofExcept_returns htarget w₁)
    (bind_returns (ofExcept_returns hr w₁) (bind_returns (onStore_returns hseen)
      (guard_returns (not_not_intro hshow.shape_eq)
        (bind_returns (onStore_returns hwrite) ⟨_, _, rfl⟩)))))

/-- An assignment puts the value at the indices selected and changes nothing else.  A value that has
cells of a tensor must be in its storage. -/
theorem assign_writes (hv : v.Within w.store) (hd : v.places.Nodup) (hu : u.Within w.store)
    (ht : u.type = v.type) (hg : u.Guarded v)
    (h : c.assign (.array v) spec (.array u) w = .ok () w') :
    ∃ r, Resolution.ofValue v.shape spec = .ok r ∧ u.shape = r.finalShape ∧
      -- The elements selected are those of the value, in row-major order.
      (r.processingShape.indices.map fun k => v.elementAt w'.store (r.indexAt k)) =
        u.codes w.store ∧
      -- The other elements are as they were,
      (∀ index ∈ v.shape.indices, (∀ k ∈ r.processingShape.indices, index ≠ r.indexAt k) →
        v.elementAt w'.store index = v.elementAt w.store index) ∧
      -- and so is every cell of every buffer that none of the elements selected has.
      (∀ b < w.store.buffers.size, w'.store.extent b = w.store.extent b ∧
        ∀ p, (b = v.buffer → ∀ k ∈ r.processingShape.indices,
          p ≠ v.layout.placeAt (r.indexAt k)) → w'.store.read b p = w.store.read b p) ∧
      -- A slice gives the value back.
      (∀ c' out w'', Config.slice c' (.array v) spec w' = .ok out w'' →
        out.type = u.type ∧ out.shape = u.shape ∧ out.codes w''.store = u.codes w.store) ∧
      (w'.store.Affords v.kind v.type u.shape →
        ∃ out w'', c.slice (.array v) spec w' = .ok out w'') ∧
      -- Assigning a slice changes nothing, now or at another time.
      (∀ c₁ c₂ out w₀ w₁ w₂, v.Within w₀.store → Config.slice c₁ (.array v) spec w₀ = .ok out w₁ →
        Config.assign c₂ (.array v) spec (.array out) w₁ = .ok () w₂ →
        Extends w₀.store w₂.store) ∧
      ∀ out w'', c.slice (.array v) spec w' = .ok out w'' →
        ∃ w₂, c.assign (.array v) spec (.array out) w'' = .ok () w₂ := by
  obtain ⟨b, r, values, s, hb, htarget, hr, hshape, _, hext, hvalues, hwrites⟩ :=
    assign_eq_ok hv hd hu (.inl hg) h
  have hkind : v.kind = b.kind := (Backend.target_eq_ok htarget).2
  have hupd := hext.updates hwrites.updates
  have hwritten : r.selected.map (v.elementAt w'.store) = u.codes w.store := by
    rw [hwrites.elements.1, hvalues, ht, View.convert_self]
  refine ⟨r, hr, hshape, ?_, fun index hi hn => (hwrites.elements.2 index hi ?_).trans ?_,
    fun b hb => ⟨hupd.extent b hb, fun p hp => hupd.frame b hb p fun he hm => ?_⟩, ?_,
    fun hmade => hwrites.slice_returns hb hkind hr (hwrites.shape.trans hshape.symm ▸ hmade),
    ?_, ?_⟩
  · rw [← hwritten, Resolution.selected, List.map_map]
    rfl
  · intro hm
    obtain ⟨k, hk, rfl⟩ := List.mem_map.mp hm
    exact hn k hk rfl
  · exact hext.read v.buffer hv.buffer _
  · obtain ⟨index, hindex, rfl⟩ := List.mem_map.mp hm
    obtain ⟨k, hk, rfl⟩ := List.mem_map.mp hindex
    exact hp he k hk rfl
  · intro c' out w'' hslice
    obtain ⟨r', hr', _, hshow⟩ := slice_shows (hv.updates hupd) hslice
    obtain rfl : r = r' := Except.ok.inj (hr.symm.trans hr')
    rw [hwritten] at hshow
    exact ⟨hshow.type_eq.trans ht.symm, hshow.shape_eq.trans hshape.symm, hshow.codes_eq⟩
  · intro c₁ c₂ out w₀ w₁ w₂ hv₀ hslice hassign
    exact assign_slice_extends hv₀ hd hslice hassign
  · intro out w'' hslice
    obtain ⟨_, w₂, hassign⟩ := assign_slice_returns hv hd hu (.inl hg) h hslice
    exact ⟨w₂, hassign⟩

end Config

namespace Sample

theorem assign_writes_reversed :
    reversed.Within cells.store ∧ reversed.places.Nodup ∧ pair.Within cells.store ∧
    pair.type = reversed.type ∧ pair.Guarded reversed ∧
    ∃ w', ({} : Config).assign (.array reversed) spec (.array pair) cells = .ok () w' ∧
      ∃ r, Resolution.ofValue reversed.shape spec = .ok r ∧
        (r.processingShape.indices.map fun k => reversed.elementAt w'.store (r.indexAt k)) =
          pair.codes cells.store := by
  obtain ⟨_, w', h⟩ := returns_of_succeeds
    (show succeeds (({} : Config).assign (.array reversed) spec (.array pair) cells) = true
      by decide)
  have hreversed : reversed.Within cells.store ∧ reversed.places.Nodup := by decide
  have hpair : pair.Within cells.store ∧ pair.Guarded reversed := by decide
  obtain ⟨r, hr, _, hwritten, _⟩ :=
    Config.assign_writes hreversed.1 hreversed.2 hpair.1 rfl hpair.2 h
  exact ⟨hreversed.1, hreversed.2, hpair.1, rfl, hpair.2, w', h, r, hr, hwritten⟩

end Sample

end Hyperslab
