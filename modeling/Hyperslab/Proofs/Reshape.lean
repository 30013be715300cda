import Hyperslab.Layout.Reshape
import Hyperslab.Proofs.Places

/-!
# Reshaping keeps the places in order

Joining axes into runs and cutting runs into axes leave the row-major list of
places as it is, so a reshaped layout has the same cells in the same order.  A
layout without gaps is one run, and a run can be cut into any extents of the same
product.
-/

namespace Hyperslab
namespace Layout

/-- Two axes that are walked like one are one run. -/
theorem placesFrom_merge (base : Int) (m n : Nat) (stride : Int) (rest : List Dim) :
    placesFrom base (⟨m * n, stride⟩ :: rest) =
      placesFrom base (⟨m, n * stride⟩ :: ⟨n, stride⟩ :: rest) := by
  simp only [placesFrom]
  rw [flatMap_range_mul]
  refine flatMap_range_congr fun i _ => flatMap_range_congr fun j _ => ?_
  congr 1
  rw [Int.natCast_add, Int.natCast_mul]
  ring

theorem placesFrom_one (base stride : Int) (rest : List Dim) :
    placesFrom base (⟨1, stride⟩ :: rest) = placesFrom base rest := by
  rw [placesFrom, List.range_one, List.flatMap_singleton, Int.natCast_zero, Int.zero_mul,
    Int.add_zero]

theorem placesFrom_congr_tail {d : Dim} {rest rest' : List Dim}
    (h : ∀ base, placesFrom base rest = placesFrom base rest') (base : Int) :
    placesFrom base (d :: rest) = placesFrom base (d :: rest') := by
  rw [placesFrom, placesFrom]
  exact flatMap_range_congr fun k _ => h _

theorem placesFrom_runs (dims : List Dim) (base : Int) :
    placesFrom base (runs dims) = placesFrom base dims := by
  induction dims generalizing base with
  | nil => rfl
  | cons d rest ih =>
    have hd := placesFrom_congr_tail (d := d) ih base
    rw [runs]
    by_cases h1 : d.extent = 1
    · obtain ⟨extent, stride⟩ := d
      obtain rfl : extent = 1 := h1
      rw [if_pos rfl, placesFrom_one, ih]
    · rw [if_neg h1]
      cases hr : runs rest with
      | nil => rw [← hd, hr]
      | cons r more =>
        by_cases hs : d.stride = r.extent * r.stride
        · show placesFrom base (if _ then _ else _) = _
          rw [if_pos hs, placesFrom_merge, ← hs, ← hd, hr]
        · show placesFrom base (if _ then _ else _) = _
          rw [if_neg hs, ← hd, hr]

/-- Cutting gives axes with the extents asked for, and keeps the places. -/
theorem split_spec {s : Shape} {rs dims : List Dim} (h : split s rs = some dims) :
    dims.map (·.extent) = s ∧ ∀ base, placesFrom base dims = placesFrom base rs := by
  fun_induction split s rs generalizing dims with
  | case1 => cases h; exact ⟨rfl, fun _ => rfl⟩
  | case2 => cases h
  | case3 rest ih =>
    obtain ⟨tail, ht, rfl⟩ := Option.map_eq_some_iff.mp h
    obtain ⟨hs, hp⟩ := ih ht
    exact ⟨by rw [List.map_cons, hs], fun base => by rw [placesFrom_one, hp]⟩
  | case4 => cases h
  | case5 rest r more ih =>
    obtain ⟨tail, ht, rfl⟩ := Option.map_eq_some_iff.mp h
    obtain ⟨hs, hp⟩ := ih ht
    exact ⟨by rw [List.map_cons, hs], fun base => by rw [placesFrom_one, hp]⟩
  | case6 rest r more _ ih =>
    obtain ⟨tail, ht, rfl⟩ := Option.map_eq_some_iff.mp h
    obtain ⟨hs, hp⟩ := ih ht
    exact ⟨by rw [List.map_cons, hs], placesFrom_congr_tail hp⟩
  | case7 n rest r more _ _ hdvd left =>
    rename_i ih
    obtain ⟨tail, ht, rfl⟩ := Option.map_eq_some_iff.mp h
    obtain ⟨hs, hp⟩ := ih ht
    refine ⟨by rw [List.map_cons, hs], fun base => ?_⟩
    have hr : (⟨n * left, r.stride⟩ : Dim) = r := by rw [Nat.mul_div_cancel' hdvd]
    rw [← hr, placesFrom_merge]
    exact placesFrom_congr_tail hp base
  | case8 => cases h

/-- A reshaped layout has the new shape and the old places. -/
theorem reshape?_spec {l l' : Layout} {s : Shape} (h : l.reshape? s = some l')
    (hs : s.size = l.size) : l'.shape = s ∧ l'.places = l.places := by
  unfold reshape? at h
  by_cases h1 : s = l.shape
  · rw [if_pos h1] at h
    cases h
    exact ⟨h1.symm, rfl⟩
  rw [if_neg h1] at h
  by_cases h0 : l.size = 0
  · rw [if_pos h0] at h
    cases h
    have hshape : shape ⟨l.offset, rowMajorDims s⟩ = s := shape_rowMajor s
    refine ⟨hshape, ?_⟩
    rw [places_eq, places_eq, hshape, Shape.indices_eq_nil (hs.trans h0), Shape.indices_eq_nil h0]
    rfl
  · rw [if_neg h0] at h
    obtain ⟨dims, hd, rfl⟩ := Option.map_eq_some_iff.mp h
    obtain ⟨hshape, hplaces⟩ := split_spec hd
    refine ⟨hshape, ?_⟩
    rw [places_eq_placesFrom, places_eq_placesFrom]
    exact (hplaces l.offset).trans (placesFrom_runs l.dims l.offset)

/-! ## Layouts without gaps -/

theorem packed_rowMajorDims (s : Shape) : packed (rowMajorDims s) = true := by
  induction s with
  | nil => rfl
  | cons n s ih =>
    have hs : (rowMajorDims s).map (·.extent) = s := shape_rowMajor s
    rw [rowMajorDims, packed, ih, hs, beq_self_eq_true, Bool.or_true, Bool.true_and]

/-- The only run of a layout without gaps and of the given size; a single element needs none. -/
def wholeRun (size : Nat) : List Dim := if size = 1 then [] else [⟨size, 1⟩]

theorem runs_of_packed {dims : List Dim} (hp : packed dims = true)
    (h0 : Shape.size (dims.map (·.extent)) ≠ 0) :
    runs dims = wholeRun (Shape.size (dims.map (·.extent))) := by
  induction dims with
  | nil => rfl
  | cons d rest ih =>
    rw [packed, Bool.and_eq_true] at hp
    obtain ⟨hd, hrest⟩ := hp
    rw [List.map_cons, Shape.size_cons] at h0 ⊢
    have ih := ih hrest (Nat.ne_zero_of_mul_ne_zero_right h0)
    generalize Shape.size (rest.map (·.extent)) = m at *
    rw [runs]
    by_cases h1 : d.extent = 1
    · rw [if_pos h1, ih, h1, Nat.one_mul]
    have hstride : d.stride = m := by simpa [h1] using hd
    have hne : d.extent * m ≠ 1 := fun h => h1 (Nat.eq_one_of_mul_eq_one_right h)
    rw [if_neg h1, ih, wholeRun, wholeRun, if_neg hne]
    by_cases hm : m = 1
    · rw [if_pos hm, hm, Nat.mul_one]
      obtain ⟨extent, stride⟩ := d
      rw [show stride = 1 from hstride.trans (by rw [hm]; rfl)]
    · rw [if_neg hm]
      show (if _ then _ else _) = _
      rw [if_pos (by rw [hstride, Int.mul_one])]

/-- One run can be cut into any extents of the same product, whatever its stride. -/
theorem split_run {s : Shape} (h0 : s.size ≠ 0) (stride : Int) :
    (split s (if s.size = 1 then [] else [⟨s.size, stride⟩])).isSome := by
  have hnil : ∀ s : Shape, s.size = 1 → (split s []).isSome := by
    intro s hs
    induction s with
    | nil => rfl
    | cons n s ih =>
      rw [Shape.size_cons] at hs
      have hn : n = 1 := Nat.eq_one_of_mul_eq_one_right hs
      rw [split, if_pos hn, Option.isSome_map]
      exact ih (by rw [hn, Nat.one_mul] at hs; exact hs)
  by_cases h1 : s.size = 1
  · rw [if_pos h1]
    exact hnil s h1
  rw [if_neg h1]
  induction s with
  | nil => exact absurd rfl h1
  | cons n s ih =>
    have hs0 : Shape.size s ≠ 0 := Nat.ne_zero_of_mul_ne_zero_right h0
    rw [split]
    by_cases hn : n = 1
    · rw [if_pos hn, Option.isSome_map, Shape.size_cons, hn, Nat.one_mul]
      rw [Shape.size_cons, hn, Nat.one_mul] at h1
      exact ih hs0 h1
    rw [if_neg hn, Shape.size_cons]
    have hn0 : 0 < n := Nat.pos_of_ne_zero (Nat.ne_zero_of_mul_ne_zero_left h0)
    by_cases hs1 : Shape.size s = 1
    · rw [if_pos (by rw [hs1, Nat.mul_one]), Option.isSome_map]
      exact hnil s hs1
    · have hne : n ≠ n * Shape.size s := fun h =>
        hs1 (Nat.eq_of_mul_eq_mul_left hn0 (h.symm.trans (Nat.mul_one n).symm))
      rw [if_neg hne, if_pos (Nat.dvd_mul_right n (Shape.size s)), Option.isSome_map,
        Nat.mul_div_cancel_left _ hn0]
      exact ih hs0 hs1

/-- A layout is given another shape in place if its runs can be cut for it. -/
theorem reshape?_of_split {l : Layout} {s : Shape}
    (h : l.size ≠ 0 → (split s (runs l.dims)).isSome) : (l.reshape? s).isSome := by
  unfold reshape?
  by_cases h1 : s = l.shape
  · rw [if_pos h1]; rfl
  by_cases h0 : l.size = 0
  · rw [if_neg h1, if_pos h0]; rfl
  rw [if_neg h1, if_neg h0, Option.isSome_map]
  exact h h0

/-- A layout without gaps can be given any shape of as many elements. -/
theorem reshape?_of_contiguous {l : Layout} {s : Shape} (hl : l.isContiguous = true)
    (hs : s.size = l.size) : (l.reshape? s).isSome := by
  apply reshape?_of_split
  intro h0
  have hp : packed l.dims = true := by simpa [isContiguous, h0] using hl
  rw [runs_of_packed hp h0]
  show (split s (wholeRun l.size)).isSome
  rw [← hs, wholeRun]
  exact split_run (fun h => h0 (hs ▸ h)) 1

/-- So can a layout with one axis, whatever its stride. -/
theorem reshape?_of_axis {l : Layout} {d : Dim} {s : Shape} (hl : l.dims = [d])
    (hs : s.size = l.size) : (l.reshape? s).isSome := by
  have hd : l.size = d.extent := by
    rw [size, shape, hl, List.map_singleton, Shape.size_cons, Shape.size_nil, Nat.mul_one]
  apply reshape?_of_split
  intro h0
  have hruns : runs l.dims = if s.size = 1 then [] else [⟨s.size, d.stride⟩] := by
    rw [hl, hs, hd]
    rfl
  rw [hruns]
  exact split_run (fun h => h0 (hs ▸ h)) d.stride

/-! ## Axes of extent one -/

theorem ne_one_of_mem_runs {dims : List Dim} {r : Dim} (h : r ∈ runs dims) : r.extent ≠ 1 := by
  induction dims generalizing r with
  | nil => cases h
  | cons d rest ih =>
    rw [runs] at h
    by_cases h1 : d.extent = 1
    · rw [if_pos h1] at h
      exact ih h
    rw [if_neg h1] at h
    cases hr : runs rest with
    | nil =>
      rw [hr] at h
      rwa [List.mem_singleton.mp h]
    | cons q more =>
      rw [hr] at h ih
      dsimp only at h
      split at h
      · rcases List.mem_cons.mp h with rfl | h
        · exact fun he => h1 (Nat.eq_one_of_mul_eq_one_right he)
        · exact ih (List.mem_cons_of_mem q h)
      · rcases List.mem_cons.mp h with rfl | h
        · exact h1
        · exact ih h

/-- Cutting the runs back into the axes they were joined from, with axes of extent one put in and
left out. -/
theorem split_of_filter {s : Shape} {dims : List Dim} (h0 : s.size ≠ 0)
    (h : s.filter (· ≠ 1) = (dims.map (·.extent)).filter (· ≠ 1)) :
    (split s (runs dims)).isSome := by
  induction s generalizing dims with
  | nil =>
    induction dims with
    | nil => rfl
    | cons d rest ih =>
      by_cases h1 : d.extent = 1
      · rw [runs, if_pos h1]
        exact ih (by simpa [h1] using h)
      · simp [h1] at h
  | cons n s ih =>
    rw [Shape.size_cons] at h0
    have hs0 : Shape.size s ≠ 0 := Nat.ne_zero_of_mul_ne_zero_right h0
    by_cases hn : n = 1
    · have hrest : (split s (runs dims)).isSome := ih hs0 (by simpa [hn] using h)
      cases hr : runs dims with
      | nil => rw [split, if_pos hn, Option.isSome_map, ← hr]; exact hrest
      | cons r more => rw [split, if_pos hn, Option.isSome_map, ← hr]; exact hrest
    induction dims with
    | nil => simp [hn] at h
    | cons d rest ihd =>
      by_cases h1 : d.extent = 1
      · rw [runs, if_pos h1]
        exact ihd (by simpa [h1] using h)
      have hcons : n = d.extent ∧
          s.filter (· ≠ 1) = (rest.map (·.extent)).filter (· ≠ 1) := by
        simpa [hn, h1] using h
      obtain ⟨rfl, hrest⟩ := hcons
      have hrest := ih hs0 hrest
      have hd : d.extent ≠ 0 := Nat.ne_zero_of_mul_ne_zero_left h0
      rw [runs, if_neg h1]
      cases hr : runs rest with
      | nil =>
        rw [hr] at hrest
        rw [split, if_neg h1, if_pos rfl, Option.isSome_map]
        exact hrest
      | cons r more =>
        have hr1 : r.extent ≠ 1 := ne_one_of_mem_runs (hr ▸ List.mem_cons_self)
        rw [hr] at hrest
        dsimp only
        split
        · -- The joined run is longer than the axis, which is cut off again.
          have hne : d.extent ≠ d.extent * r.extent := fun he =>
            hr1 (Nat.eq_of_mul_eq_mul_left (Nat.pos_of_ne_zero hd) (he.symm.trans
              (Nat.mul_one _).symm))
          rw [split, if_neg h1, if_neg hne, if_pos (Nat.dvd_mul_right _ _), Option.isSome_map,
            Nat.mul_div_cancel_left _ (Nat.pos_of_ne_zero hd)]
          exact hrest
        · rw [split, if_neg h1, if_pos rfl, Option.isSome_map]
          exact hrest

/-- Shapes that differ by axes of extent one are taken on in place, whatever the strides. -/
theorem reshape?_of_filter {l : Layout} {s : Shape} (hs : s.size = l.size)
    (h : s.filter (· ≠ 1) = l.shape.filter (· ≠ 1)) : (l.reshape? s).isSome := by
  apply reshape?_of_split
  intro h0
  exact split_of_filter (fun he => h0 (hs ▸ he)) h

theorem isContiguous_rowMajor (s : Shape) : (rowMajor s).isContiguous = true := by
  rw [isContiguous, Bool.or_eq_true]
  exact Or.inr (packed_rowMajorDims s)

end Layout

end Hyperslab
