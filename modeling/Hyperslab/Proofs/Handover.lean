import Hyperslab.Proofs.Arrays

/-!
# Handing elements over

A tensor takes elements one after the other from where they are, unless it finds them in
its own storage.  Storages are told apart by where they start.  As long as values that
share a cell with a tensor lie in a storage that starts where its own does, what is
written is what was there before the first element was.
-/

namespace Hyperslab

open Store (Extends)

namespace View

variable {v w u target : View} {s s' : Store}

/-! ## Shared cells -/

theorem shares_iff : v.shares w = true ↔ v.buffer = w.buffer ∧ ∃ p ∈ v.places, p ∈ w.places := by
  rw [shares, Bool.and_eq_true, beq_iff_eq, List.any_eq_true]
  simp only [List.contains_iff_mem]

theorem not_shares_of_buffer (h : w.buffer ≠ v.buffer) : w.shares v = false := by
  rw [shares, beq_false_of_ne h, Bool.false_and]

/-! ## Storages -/

/-- Where the storage of an array starts when the array is seen as a tensor. -/
def base (v : View) : Int :=
  match v.kind with
  | .host => v.layout.offset
  | .tensor => v.start

theorem base_of_tensor (h : v.kind = .tensor) : v.base = v.start := by
  rw [base, h]

/-- Values that share a cell with a tensor to which they are written lie in its storage, as storages
are told apart. -/
def Guarded (u target : View) : Prop :=
  target.kind = .tensor → u.shares target = true → u.base = target.start

instance (u target : View) : Decidable (u.Guarded target) :=
  inferInstanceAs (Decidable (_ → _ → _))

theorem Guarded.of_apart (h : u.shares target = false) : u.Guarded target := by
  intro _ hshares
  rw [h] at hshares
  cases hshares

/-! ## What is read in time -/

/-- What is written to places of an array is what the values were before: they are all read first,
none of them is written, or each is written to where it is. -/
def Steady (u target : View) (places : List Int) : Prop :=
  target.readsFirst u = true ∨ u.shares target = false ∨
    u.buffer = target.buffer ∧ u.places = places

theorem Guarded.readsFirst (h : u.Guarded target) (hk : u.kind = target.kind) :
    target.readsFirst u = true ∨ u.shares target = false := by
  cases htensor : target.kind with
  | host => exact .inl (by simp [View.readsFirst, htensor])
  | tensor =>
    cases hshares : u.shares target with
    | false => exact .inr rfl
    | true =>
      have hstart := h htensor hshares
      rw [base_of_tensor (hk.trans htensor)] at hstart
      exact .inl (by simp [View.readsFirst, (shares_iff.mp hshares).1, hstart])

theorem Guarded.steady (h : u.Guarded target) (hk : u.kind = target.kind) (places : List Int) :
    u.Steady target places :=
  (h.readsFirst hk).imp_right .inl

theorem Steady.of_new {places : List Int} (hb : target.buffer < s.buffers.size)
    (hu : s.buffers.size ≤ u.buffer) : u.Steady target places :=
  .inr (.inl (not_shares_of_buffer (by omega)))

/-- The array has the cells of another one, in the same storage, or new cells. -/
def From (v : View) (s : Store) (w : View) : Prop :=
  w.type = v.type ∧
    (w.buffer = v.buffer ∧ w.places = v.places ∧ w.start = v.start ∨ s.buffers.size ≤ w.buffer)

theorem reshape_from {shape : Shape} (h : v.reshape shape s = .ok w s') : v.From s w := by
  rcases reshape_eq_ok h with ⟨_, l, rfl, _, hplaces⟩ | ⟨_, new, hnew, rfl⟩
  · exact ⟨rfl, .inl ⟨rfl, hplaces, rfl⟩⟩
  · rw [create_eq] at hnew
    cases hnew
    exact ⟨rfl, .inr (Nat.le_refl _)⟩

theorem Steady.follow {places : List Int} (h : u.Steady target places)
    (hb : target.buffer < s.buffers.size) (hw : u.From s w) : w.Steady target places := by
  obtain ⟨htype, ⟨hbuffer, hplaces, hstart⟩ | hnew⟩ := hw
  · rwa [Steady, readsFirst, shares, hbuffer, hplaces, hstart, htype]
  · exact .of_new hb hnew

/-- Elements brought to another type are read before the first is written. -/
theorem Steady.ofType {type : ElementType} {places : List Int} (h : u.Steady target places)
    (hb : target.buffer < s.buffers.size) (hw : u.ofType type s = .ok w s') :
    w.Steady target places := by
  rcases ofType_eq_ok hw with ⟨_, rfl, _⟩ | ⟨new, hnew, rfl⟩
  · exact h
  · rw [create_eq] at hnew
    cases hnew
    exact .of_new hb (Nat.le_refl _)

/-! ## Elements on their way -/

theorem codesFrom_self (h : w.type = v.type) (s : Store) : v.codesFrom w s = w.codes s := by
  rw [codesFrom, h, convert_self]

theorem length_codesFrom (v w : View) (s : Store) : (v.codesFrom w s).length = w.size := by
  rw [codesFrom, List.length_map, length_codes]
  rfl

/-- Whatever the storages are, the places take some codes in order. -/
theorem exists_transfer_eq_scatter (v : View) (places : List Int) (w : View) (s : Store) :
    ∃ codes, v.transfer places w s = s.scatter v.buffer places codes := by
  unfold transfer
  split
  · exact ⟨_, rfl⟩
  · exact Store.exists_move_eq_scatter s w.buffer w.places v.buffer places

/-- Places of an array take the elements that the values had before the first was written. -/
theorem transfer_eq_scatter {places : List Int} (h : w.Steady v places)
    (hsub : ∀ p ∈ places, p ∈ v.places) (hlen : w.size = places.length) :
    v.transfer places w s = s.scatter v.buffer places (v.codesFrom w s) := by
  unfold transfer
  by_cases hfirst : v.readsFirst w = true
  · rw [if_pos hfirst]
  have htype : w.type = v.type := by
    by_contra hne
    exact hfirst (by simp [readsFirst, hne])
  rw [if_neg hfirst, codesFrom_self htype]
  rcases h with h | hapart | ⟨hbuffer, hplaces⟩
  · exact absurd h hfirst
  · rw [Store.move_apart]
    · rfl
    · rw [← hlen]
      exact Layout.length_places w.layout
    · intro hb p hp hm
      have hshares : w.shares v = true := shares_iff.mpr ⟨hb, p, hp, hsub p hm⟩
      rw [hapart] at hshares
      cases hshares
  · rw [codes, hbuffer, hplaces, Store.move_self, Store.scatter_gather]

end View

end Hyperslab
