import Hyperslab.Store
import Mathlib.Data.List.Nodup

/-!
# Cells under writes

`Extends` says that a computation only added buffers, and `Updates` that it wrote
given codes to given places of one buffer as well.  Both fix every cell of every
buffer there was, so the frame of a computation is read off without looking at how
it wrote.
-/

namespace Hyperslab
namespace Store

def HasCell (s : Store) (buffer : Nat) (place : Int) : Prop :=
  0 ≤ place ∧ place < s.extent buffer

instance (s : Store) (buffer : Nat) (place : Int) : Decidable (s.HasCell buffer place) :=
  inferInstanceAs (Decidable (_ ∧ _))

theorem HasCell.lt_count {s : Store} {buffer : Nat} {place : Int} (h : s.HasCell buffer place) :
    buffer < s.buffers.size := by
  rcases Nat.lt_or_ge buffer s.buffers.size with hb | hb
  · exact hb
  · have he : s.extent buffer = 0 := by
      rw [extent, Array.getElem?_eq_none hb]
      rfl
    obtain ⟨h0, hp⟩ := h
    omega

/-! ## A single write -/

theorem count_write (s : Store) (buffer : Nat) (place code : Int) :
    (s.write buffer place code).buffers.size = s.buffers.size := by
  unfold write
  by_cases h : place < 0
  · rw [if_pos h]
  · rw [if_neg h]
    exact Array.size_modify

theorem limit_write (s : Store) (buffer : Nat) (place code : Int) :
    (s.write buffer place code).limit = s.limit := by
  unfold write
  split <;> rfl

theorem getElem?_write (s : Store) (buffer b : Nat) (place code : Int) (h : 0 ≤ place) :
    (s.write buffer place code).buffers[b]? =
      if buffer = b then s.buffers[b]?.map (·.setIfInBounds place.toNat code)
      else s.buffers[b]? := by
  rw [write, if_neg (Int.not_lt.mpr h)]
  exact Array.getElem?_modify

theorem extent_write (s : Store) (buffer b : Nat) (place code : Int) :
    (s.write buffer place code).extent b = s.extent b := by
  by_cases h : place < 0
  · rw [write, if_pos h]
  · rw [extent, extent, getElem?_write s buffer b place code (Int.not_lt.mp h)]
    by_cases hb : buffer = b
    · rw [if_pos hb]
      cases s.buffers[b]? with
      | none => rfl
      | some cells => exact Array.size_setIfInBounds
    · rw [if_neg hb]

theorem read_write_self {s : Store} {buffer : Nat} {place : Int} (h : s.HasCell buffer place)
    (code : Int) : (s.write buffer place code).read buffer place = code := by
  have hb := h.lt_count
  obtain ⟨h0, hp⟩ := h
  have hcell : place.toNat < s.buffers[buffer].size := by
    rw [extent, Array.getElem?_eq_getElem hb] at hp
    exact (Int.toNat_lt h0).mpr hp
  rw [read, if_neg (Int.not_lt.mpr h0), getElem?_write s buffer buffer place code h0, if_pos rfl,
    Array.getElem?_eq_getElem hb, Option.map_some, Option.getD_some,
    Array.getElem?_setIfInBounds_self_of_lt hcell, Option.getD_some]

theorem read_write_ne {s : Store} {buffer b : Nat} {place p : Int} (h : b = buffer → p ≠ place)
    (code : Int) : (s.write buffer place code).read b p = s.read b p := by
  by_cases h0 : place < 0
  · rw [write, if_pos h0]
  by_cases hp : p < 0
  · rw [read, read, if_pos hp, if_pos hp]
  rw [read, read, if_neg hp, if_neg hp, getElem?_write s buffer b place code (Int.not_lt.mp h0)]
  by_cases hb : buffer = b
  · rw [if_pos hb]
    have hne : place.toNat ≠ p.toNat := by
      have := h hb.symm
      omega
    cases s.buffers[b]? with
    | none => rfl
    | some cells =>
      rw [Option.map_some, Option.getD_some, Array.getElem?_setIfInBounds_ne hne]
      rfl
  · rw [if_neg hb]

/-- A cell that is given the code it has stays as it was. -/
theorem write_read (s : Store) (buffer : Nat) (place : Int) :
    s.write buffer place (s.read buffer place) = s := by
  by_cases h : place < 0
  · rw [write, if_pos h]
  have hbuffers : (s.write buffer place (s.read buffer place)).buffers = s.buffers := by
    refine Array.ext_getElem? fun b => ?_
    rw [getElem?_write s buffer b place _ (Int.not_lt.mp h)]
    split_ifs with hb
    · subst hb
      cases hcells : s.buffers[buffer]? with
      | none => rfl
      | some cells =>
        refine congrArg some (Array.ext_getElem? fun i => ?_)
        rw [read, if_neg h, hcells, Option.getD_some, Array.getElem?_setIfInBounds]
        split_ifs with hi hlt
        · rw [← hi, Array.getElem?_eq_getElem hlt]
          rfl
        · rw [← hi, Array.getElem?_eq_none (Nat.not_lt.mp hlt)]
        · rfl
    · rfl
  exact congrArg₂ Store.mk hbuffers (limit_write s buffer place _)

theorem hasCell_write {s : Store} {buffer b : Nat} {place p : Int} (code : Int) :
    (s.write buffer place code).HasCell b p ↔ s.HasCell b p := by
  rw [HasCell, HasCell, extent_write]

/-! ## New buffers -/

/-- The cells there were are as they were; there may be more buffers. -/
structure Extends (s s' : Store) : Prop where
  count : s.buffers.size ≤ s'.buffers.size
  extent : ∀ b < s.buffers.size, s'.extent b = s.extent b
  read : ∀ b < s.buffers.size, ∀ p, s'.read b p = s.read b p
  limit : s'.limit = s.limit

namespace Extends

theorem refl (s : Store) : Extends s s :=
  ⟨Nat.le_refl _, fun _ _ => rfl, fun _ _ _ => rfl, rfl⟩

theorem trans {s t u : Store} (h : Extends s t) (h' : Extends t u) : Extends s u where
  count := Nat.le_trans h.count h'.count
  extent b hb := (h'.extent b (Nat.lt_of_lt_of_le hb h.count)).trans (h.extent b hb)
  read b hb p := (h'.read b (Nat.lt_of_lt_of_le hb h.count) p).trans (h.read b hb p)
  limit := h'.limit.trans h.limit

theorem hasCell {s s' : Store} (h : Extends s s') {b : Nat} {p : Int} (hp : s.HasCell b p) :
    s'.HasCell b p := by
  rw [HasCell, h.extent b hp.lt_count]
  exact hp

theorem gather {s s' : Store} (h : Extends s s') {b : Nat} (hb : b < s.buffers.size)
    (places : List Int) : s'.gather b places = s.gather b places :=
  List.map_congr_left fun p _ => h.read b hb p

end Extends

theorem getElem?_grow (s : Store) (n : Nat) {b : Nat} (hb : b < s.buffers.size) :
    (s.grow n).buffers[b]? = s.buffers[b]? :=
  Array.getElem?_push_lt hb |>.trans (Array.getElem?_eq_getElem hb).symm

theorem extends_grow (s : Store) (n : Nat) : s.Extends (s.grow n) where
  count := by
    rw [grow, Array.size_push]
    exact Nat.le_succ _
  extent b hb := by rw [extent, extent, getElem?_grow s n hb]
  read b hb p := by rw [read, read, getElem?_grow s n hb]
  limit := rfl

theorem hasCell_grow (s : Store) (n : Nat) {p : Int} (h0 : 0 ≤ p) (hp : p < n) :
    (s.grow n).HasCell s.buffers.size p := by
  refine ⟨h0, ?_⟩
  rw [extent, grow, Array.getElem?_push_size, Option.getD_some, Array.size_replicate]
  exact hp

/-! ## Many writes -/

/-- The places of one buffer have the codes, and the cells there were elsewhere are as they were. -/
structure Updates (s s' : Store) (buffer : Nat) (places codes : List Int) : Prop where
  count : s.buffers.size ≤ s'.buffers.size
  extent : ∀ b < s.buffers.size, s'.extent b = s.extent b
  written : s'.gather buffer places = codes
  frame : ∀ b < s.buffers.size, ∀ p, (b = buffer → p ∉ places) → s'.read b p = s.read b p
  limit : s'.limit = s.limit

theorem Extends.updates {s t u : Store} {buffer : Nat} {places codes : List Int} (h : Extends s t)
    (h' : Updates t u buffer places codes) : Updates s u buffer places codes where
  count := Nat.le_trans h.count h'.count
  extent b hb := (h'.extent b (Nat.lt_of_lt_of_le hb h.count)).trans (h.extent b hb)
  written := h'.written
  frame b hb p hp := (h'.frame b (Nat.lt_of_lt_of_le hb h.count) p hp).trans (h.read b hb p)
  limit := h'.limit.trans h.limit

/-- Nothing written is no change. -/
theorem Extends.updates_nil {s s' : Store} (h : Extends s s') (buffer : Nat) :
    Updates s s' buffer [] [] :=
  ⟨h.count, h.extent, rfl, fun b hb p _ => h.read b hb p, h.limit⟩

theorem Updates.hasCell {s s' : Store} {buffer : Nat} {places codes : List Int}
    (h : Updates s s' buffer places codes) {b : Nat} {p : Int} (hp : s.HasCell b p) :
    s'.HasCell b p := by
  rw [HasCell, h.extent b hp.lt_count]
  exact hp

/-- A write outside the buffers there were leaves them alone. -/
theorem Updates.extends {s s' : Store} {buffer : Nat} {places codes : List Int}
    (h : Updates s s' buffer places codes) (hb : s.buffers.size ≤ buffer) : Extends s s' where
  count := h.count
  extent := h.extent
  read b hlt p := h.frame b hlt p fun he => by omega
  limit := h.limit

/-- Writing what is there changes nothing. -/
theorem Updates.extends_same {s s' : Store} {buffer : Nat} {places : List Int}
    (h : Updates s s' buffer places (s.gather buffer places)) : Extends s s' where
  count := h.count
  extent := h.extent
  read b hb p := by
    by_cases hp : b = buffer ∧ p ∈ places
    · obtain ⟨rfl, hp⟩ := hp
      exact List.map_inj_left.mp h.written p hp
    · exact h.frame b hb p fun he hm => hp ⟨he, hm⟩
  limit := h.limit

/-- Two updates of different cells of one buffer are one. -/
theorem Updates.append {s t u : Store} {buffer : Nat} {places places' codes codes' : List Int}
    (h : Updates s t buffer places codes) (h' : Updates t u buffer places' codes')
    (hb : buffer < s.buffers.size) (hd : ∀ p ∈ places, p ∉ places') :
    Updates s u buffer (places ++ places') (codes ++ codes') where
  count := Nat.le_trans h.count h'.count
  extent b hlt := (h'.extent b (Nat.lt_of_lt_of_le hlt h.count)).trans (h.extent b hlt)
  written := by
    have hfirst : u.gather buffer places = t.gather buffer places :=
      List.map_congr_left fun p hp =>
        h'.frame buffer (Nat.lt_of_lt_of_le hb h.count) p fun _ => hd p hp
    have hw := h'.written
    have hw' := h.written
    rw [← hfirst] at hw'
    rw [gather, List.map_append, ← hw, ← hw']
    rfl
  frame b hlt p hp := by
    rw [h'.frame b (Nat.lt_of_lt_of_le hlt h.count) p fun he hm =>
      hp he (List.mem_append_right _ hm)]
    exact h.frame b hlt p fun he hm => hp he (List.mem_append_left _ hm)
  limit := h'.limit.trans h.limit

theorem scatter_cons (s : Store) (buffer : Nat) (p c : Int) (places codes : List Int) :
    s.scatter buffer (p :: places) (c :: codes) =
      (s.write buffer p c).scatter buffer places codes := rfl

/-- Distinct cells take the codes that are written to them. -/
theorem scatter_updates {s : Store} {buffer : Nat} {places codes : List Int}
    (hnodup : places.Nodup) (hcells : ∀ p ∈ places, s.HasCell buffer p)
    (hlen : codes.length = places.length) :
    s.Updates (s.scatter buffer places codes) buffer places codes := by
  induction places generalizing s codes with
  | nil =>
    rw [List.length_eq_zero_iff.mp hlen]
    exact (Extends.refl s).updates_nil buffer
  | cons p places ih =>
    obtain ⟨c, codes, rfl⟩ := List.exists_cons_of_length_eq_add_one hlen
    obtain ⟨hp, hrest⟩ := List.nodup_cons.mp hnodup
    have hcell : s.HasCell buffer p := hcells p List.mem_cons_self
    have h : (s.write buffer p c).Updates _ buffer places codes := ih hrest
      (fun q hq => (hasCell_write c).mpr (hcells q (List.mem_cons_of_mem p hq)))
      (Nat.succ.inj hlen)
    have hcount := count_write s buffer p c
    rw [scatter_cons]
    refine ⟨hcount ▸ h.count, fun b hb => ?_, ?_, fun b hb q hq => ?_, ?_⟩
    · rw [h.extent b (hcount.symm ▸ hb), extent_write]
    · show _ :: _ = _
      rw [h.frame buffer (hcount.symm ▸ hcell.lt_count) p (fun _ => hp), read_write_self hcell]
      exact congrArg _ h.written
    · rw [h.frame b (hcount.symm ▸ hb) q fun he hm => hq he (List.mem_cons_of_mem p hm)]
      refine read_write_ne (fun he hqp => hq he ?_) c
      rw [hqp]
      exact List.mem_cons_self
    · rw [h.limit, limit_write]

/-- What an update wrote at a place of the list. -/
theorem Updates.read_of_mem {s s' : Store} {buffer : Nat} {α : Type} {items : List α}
    {place code : α → Int} (h : Updates s s' buffer (items.map place) (items.map code)) {a : α}
    (ha : a ∈ items) : s'.read buffer (place a) = code a := by
  have hw := h.written
  rw [gather, List.map_map] at hw
  exact List.map_inj_left.mp hw a ha

/-! ## Cells moved one after the other -/

theorem move_cons (s : Store) (source : Nat) (p : Int) (sources : List Int) (target : Nat) (q : Int)
    (targets : List Int) : s.move source (p :: sources) target (q :: targets) =
      (s.write target q (s.read source p)).move source sources target targets := rfl

/-- Whatever is read on the way, the places take some codes in order. -/
theorem exists_move_eq_scatter (s : Store) (source : Nat) (sources : List Int) (target : Nat)
    (targets : List Int) : ∃ codes, s.move source sources target targets =
      s.scatter target targets codes := by
  induction sources generalizing s targets with
  | nil =>
    refine ⟨[], ?_⟩
    rw [scatter, List.zip_nil_right]
    rfl
  | cons p sources ih =>
    cases targets with
    | nil => exact ⟨[], rfl⟩
    | cons q targets =>
      obtain ⟨codes, hcodes⟩ := ih (s.write target q (s.read source p)) targets
      exact ⟨s.read source p :: codes, hcodes⟩

/-- Where no cell is both read and written, it makes no difference when the cells are read. -/
theorem move_apart {s : Store} {source target : Nat} {sources targets : List Int}
    (hlen : sources.length = targets.length)
    (hapart : source = target → ∀ p ∈ sources, p ∉ targets) :
    s.move source sources target targets =
      s.scatter target targets (s.gather source sources) := by
  induction sources generalizing targets s with
  | nil =>
    rw [List.length_eq_zero_iff.mp hlen.symm]
    rfl
  | cons p sources ih =>
    obtain ⟨q, targets, rfl⟩ := List.exists_cons_of_length_eq_add_one hlen.symm
    have hrest : source = target → ∀ p ∈ sources, p ∉ targets := fun he p hp hm =>
      hapart he p (List.mem_cons_of_mem _ hp) (List.mem_cons_of_mem _ hm)
    rw [move_cons, ih (Nat.succ.inj hlen) hrest]
    -- The cell just written is none of those that are still to be read.
    have hread : (s.write target q (s.read source p)).gather source sources =
        s.gather source sources := by
      refine List.map_congr_left fun p' hp' => read_write_ne (fun he hq => ?_) _
      apply hapart he p' (List.mem_cons_of_mem _ hp')
      rw [hq]
      exact List.mem_cons_self
    rw [hread]
    rfl

/-- Cells moved to where they are stay as they were. -/
theorem move_self (s : Store) (buffer : Nat) (places : List Int) :
    s.move buffer places buffer places = s := by
  induction places with
  | nil => rfl
  | cons p places ih => rw [move_cons, write_read, ih]

theorem scatter_gather (s : Store) (buffer : Nat) (places : List Int) :
    s.scatter buffer places (s.gather buffer places) = s := by
  induction places with
  | nil => rfl
  | cons p places ih => rw [gather, List.map_cons, scatter_cons, write_read, ← gather, ih]

end Store

end Hyperslab
