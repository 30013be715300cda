import Hyperslab.Proofs.Indices

/-!
# The places of elements

`Layout.placeAt` is the place of the element at one index, and `Layout.places` is
its map over all indices.  Windows and turned layouts are layouts of the same
cells, so each is given by the index of the original that it stands for: a window
visits `start + step * k`, and a turned axis counts from its far end.
-/

namespace Hyperslab

/-- The index that a walk visits after `k` steps. -/
def Interval.index (i : Interval) (k : Int) : Int := i.start + i.step * k

namespace Layout

/-- The distance from the first element to the element at an index. -/
def travel : List Dim → List Int → Int
  | d :: dims, i :: index => i * d.stride + travel dims index
  | _, _ => 0

/-- The place of the element at an index. -/
def placeAt (l : Layout) (index : List Int) : Int := l.offset + travel l.dims index

theorem travel_nil (index : List Int) : travel [] index = 0 := by
  cases index <;> rfl

theorem travel_cons (d : Dim) (dims : List Dim) (i : Int) (index : List Int) :
    travel (d :: dims) (i :: index) = i * d.stride + travel dims index := rfl

theorem placesFrom_eq (base : Int) (dims : List Dim) :
    placesFrom base dims =
      (Shape.indices (dims.map (·.extent))).map fun index => base + travel dims index := by
  induction dims generalizing base with
  | nil => rw [List.map_nil, Shape.indices_nil, List.map_singleton, travel_nil, Int.add_zero]; rfl
  | cons d dims ih =>
    rw [List.map_cons, Shape.indices_cons, List.map_flatMap, placesFrom]
    refine flatMap_range_congr fun k _ => ?_
    rw [ih, List.map_map]
    refine List.map_congr_left fun index _ => ?_
    show base + k * d.stride + travel dims index = base + (k * d.stride + travel dims index)
    rw [Int.add_assoc]

/-- The places are those of all indices, also where an axis is empty. -/
theorem places_eq (l : Layout) : l.places = l.shape.indices.map l.placeAt := by
  unfold places
  by_cases h : l.size = 0
  · rw [if_pos h, Shape.indices_eq_nil h, List.map_nil]
  · rw [if_neg h, placesFrom_eq]
    rfl

theorem places_eq_placesFrom (l : Layout) : l.places = placesFrom l.offset l.dims := by
  rw [places_eq, placesFrom_eq]
  rfl

theorem length_places (l : Layout) : l.places.length = l.size := by
  rw [places_eq, List.length_map, Shape.length_indices]
  rfl

theorem placeAt_mem_places {l : Layout} {index : List Int} (h : index ∈ l.shape.indices) :
    l.placeAt index ∈ l.places := by
  rw [places_eq]
  exact List.mem_map_of_mem h

/-- Where cells are distinct, an index is given by its place. -/
theorem placeAt_injOn {l : Layout} (hl : l.places.Nodup) {a b : List Int}
    (ha : a ∈ l.shape.indices) (hb : b ∈ l.shape.indices) (h : l.placeAt a = l.placeAt b) :
    a = b :=
  List.inj_on_of_nodup_map (places_eq l ▸ hl) ha hb h

/-! ## Windows -/

theorem travel_window (dims : List Dim) (is : List Interval) (extents : Shape) (index : List Int)
    (o : Int) (hd : dims.length = is.length) (he : extents.length = is.length)
    (hi : index.length = is.length) :
    (dims.zip is).foldl (fun o (d, i) => o + i.start * d.stride) o +
        travel (List.zipWith (fun (d, i) n => ⟨n, i.step * d.stride⟩) (dims.zip is) extents) index =
      o + travel dims (List.zipWith Interval.index is index) := by
  induction is generalizing dims extents index o with
  | nil =>
    rw [List.length_eq_zero_iff.mp hd, List.length_eq_zero_iff.mp he]
    rfl
  | cons i is ih =>
    obtain ⟨d, dims, rfl⟩ := List.exists_cons_of_length_eq_add_one hd
    obtain ⟨n, extents, rfl⟩ := List.exists_cons_of_length_eq_add_one he
    obtain ⟨k, index, rfl⟩ := List.exists_cons_of_length_eq_add_one hi
    have h := ih dims extents index (o + i.start * d.stride) (by simpa using hd)
      (by simpa using he) (by simpa using hi)
    rw [List.zip_cons_cons, List.foldl_cons, List.zipWith_cons_cons, List.zipWith_cons_cons,
      travel_cons, travel_cons, Interval.index]
    show _ + (k * (i.step * d.stride) + _) = _
    rw [Int.add_left_comm, h]
    ring

theorem shape_window (l : Layout) {is : List Interval} {extents : Shape}
    (hd : l.dims.length = is.length) (he : extents.length = is.length) :
    (l.window is extents).shape = extents := by
  refine List.ext_getElem ?_ fun n hn _ => ?_
  · simp [window, shape, hd, he]
  · simp [window, shape]

/-- The element of a window at an index is the element of the array that the intervals visit
there. -/
theorem placeAt_window (l : Layout) {is : List Interval} {extents : Shape} {index : List Int}
    (hd : l.dims.length = is.length) (he : extents.length = is.length)
    (hi : index ∈ extents.indices) :
    (l.window is extents).placeAt index = l.placeAt (List.zipWith Interval.index is index) :=
  travel_window l.dims is extents index l.offset hd he
    ((Shape.length_of_mem_indices hi).trans he)

theorem places_window (l : Layout) {is : List Interval} {extents : Shape}
    (hd : l.dims.length = is.length) (he : extents.length = is.length) :
    (l.window is extents).places =
      (extents.indices.map (List.zipWith Interval.index is)).map l.placeAt := by
  rw [places_eq, shape_window l hd he, List.map_map]
  exact List.map_congr_left fun index hi => placeAt_window l hd he hi

end Layout

/-! ## Turned axes -/

namespace Shape

/-- An index counted from the far end of the marked axes. -/
def mirror : Shape → List Bool → List Int → List Int
  | n :: s, m :: marks, i :: index => (if m then (n : Int) - 1 - i else i) :: mirror s marks index
  | _, _, _ => []

theorem mirror_mem {s : Shape} {marks : List Bool} {index : List Int}
    (hm : marks.length = s.length) (h : index ∈ s.indices) : mirror s marks index ∈ s.indices := by
  induction s generalizing marks index with
  | nil => exact mem_indices_nil.mpr (by cases marks <;> cases index <;> rfl)
  | cons n s ih =>
    obtain ⟨i, rest, rfl, h0, hn, hrest⟩ := mem_indices_cons.mp h
    obtain ⟨m, marks, rfl⟩ := List.exists_cons_of_length_eq_add_one hm
    refine cons_mem_indices.mpr ⟨?_, ih (by simpa using hm) hrest⟩
    cases m with
    | false => exact ⟨h0, hn⟩
    | true => rw [if_pos rfl]; omega

theorem mirror_mirror {s : Shape} {marks : List Bool} {index : List Int}
    (hm : marks.length = s.length) (h : index ∈ s.indices) :
    mirror s marks (mirror s marks index) = index := by
  induction s generalizing marks index with
  | nil => rw [mem_indices_nil.mp h]; cases marks <;> rfl
  | cons n s ih =>
    obtain ⟨i, rest, rfl, h0, hn, hrest⟩ := mem_indices_cons.mp h
    obtain ⟨m, marks, rfl⟩ := List.exists_cons_of_length_eq_add_one hm
    rw [mirror, mirror, ih (by simpa using hm) hrest]
    cases m with
    | false => rfl
    | true => rw [if_pos rfl, if_pos rfl]; congr 1; omega

/-- Turning axes around only changes the order in which the indices are listed. -/
theorem map_mirror_perm {s : Shape} {marks : List Bool} (hm : marks.length = s.length) :
    (s.indices.map (mirror s marks)).Perm s.indices := by
  have hnodup : (s.indices.map (mirror s marks)).Nodup := by
    refine List.Nodup.map_on (fun a ha b hb h => ?_) s.nodup_indices
    rw [← mirror_mirror hm ha, h, mirror_mirror hm hb]
  refine (List.perm_ext_iff_of_nodup hnodup s.nodup_indices).mpr fun index =>
    ⟨fun h => ?_, fun h => ?_⟩
  · obtain ⟨a, ha, rfl⟩ := List.mem_map.mp h
    exact mirror_mem hm ha
  · exact List.mem_map.mpr ⟨mirror s marks index, mirror_mem hm h, mirror_mirror hm h⟩

end Shape

namespace Layout

theorem travel_flip (dims : List Dim) (marks : List Bool) (index : List Int) (o : Int)
    (hm : marks.length = dims.length) (hi : index.length = dims.length) :
    (dims.zip marks).foldl
        (fun o (d, m) => if m then o + ((d.extent : Int) - 1) * d.stride else o) o +
        travel ((dims.zip marks).map fun (d, m) => if m then ⟨d.extent, -d.stride⟩ else d) index =
      o + travel dims (Shape.mirror (dims.map (·.extent)) marks index) := by
  induction dims generalizing marks index o with
  | nil => rw [travel_nil]; rfl
  | cons d dims ih =>
    obtain ⟨m, marks, rfl⟩ := List.exists_cons_of_length_eq_add_one hm
    obtain ⟨i, index, rfl⟩ := List.exists_cons_of_length_eq_add_one hi
    have h := fun o => ih marks index o (by simpa using hm) (by simpa using hi)
    rw [List.zip_cons_cons, List.foldl_cons, List.map_cons, List.map_cons, travel_cons,
      Shape.mirror, travel_cons, Int.add_left_comm, h]
    cases m with
    | false => simp only [Bool.false_eq_true, if_false]; ring
    | true => simp only [if_true]; ring

theorem shape_flip (l : Layout) {marks : List Bool} (hm : marks.length = l.dims.length) :
    (l.flip marks).shape = l.shape := by
  refine List.ext_getElem ?_ fun n hn _ => ?_
  · simp [flip, shape, hm]
  · simp only [flip, shape, List.getElem_map, List.getElem_zip]
    split <;> rfl

theorem placeAt_flip (l : Layout) {marks : List Bool} {index : List Int}
    (hm : marks.length = l.dims.length) (hi : index ∈ l.shape.indices) :
    (l.flip marks).placeAt index = l.placeAt (Shape.mirror l.shape marks index) :=
  travel_flip l.dims marks index l.offset hm
    ((Shape.length_of_mem_indices hi).trans (List.length_map _))

theorem flip_none (l : Layout) {marks : List Bool} (hm : marks.length = l.dims.length)
    (h : marks.contains true = false) : l.flip marks = l := by
  obtain ⟨offset, dims⟩ := l
  have hdims : ∀ o : Int, (dims.zip marks).foldl
        (fun o (d, m) => if m then o + ((d.extent : Int) - 1) * d.stride else o) o = o ∧
      ((dims.zip marks).map fun (d, m) => if m then ⟨d.extent, -d.stride⟩ else d) = dims := by
    induction dims generalizing marks with
    | nil => exact fun o => ⟨rfl, rfl⟩
    | cons d dims ih =>
      obtain ⟨m, marks, rfl⟩ := List.exists_cons_of_length_eq_add_one hm
      rw [List.contains_cons, Bool.or_eq_false_iff] at h
      obtain rfl : m = false := by simpa using h.1
      intro o
      obtain ⟨ho, hds⟩ := ih h.2 (by simpa using hm) o
      exact ⟨ho, congrArg (d :: ·) hds⟩
  obtain ⟨ho, hds⟩ := hdims offset
  exact congrArg₂ Layout.mk ho hds

/-! ## Row-major layouts -/

theorem shape_rowMajor (s : Shape) : (rowMajor s).shape = s := by
  show (rowMajorDims s).map (·.extent) = s
  induction s with
  | nil => rfl
  | cons n s ih => rw [rowMajorDims, List.map_cons, ih]

theorem placesFrom_rowMajorDims (base : Int) (s : Shape) :
    placesFrom base (rowMajorDims s) =
      (List.range s.size).map fun (n : Nat) => base + (n : Int) := by
  induction s generalizing base with
  | nil =>
    rw [Shape.size_nil, List.range_one, List.map_singleton, Int.natCast_zero, Int.add_zero]
    rfl
  | cons n s ih =>
    rw [rowMajorDims, placesFrom, Shape.size_cons, List.map_eq_flatMap, flatMap_range_mul]
    refine flatMap_range_congr fun k _ => ?_
    rw [ih, List.map_eq_flatMap]
    refine flatMap_range_congr fun j _ => ?_
    rw [Int.natCast_add, Int.natCast_mul, Int.add_assoc]

theorem places_rowMajor (s : Shape) :
    (rowMajor s).places = (List.range s.size).map fun (n : Nat) => (n : Int) := by
  rw [places_eq_placesFrom]
  show placesFrom 0 (rowMajorDims s) = _
  rw [placesFrom_rowMajorDims]
  simp only [Int.zero_add]

/-- Codes looked up at the row-major positions of all indices are the codes themselves. -/
theorem map_getD_rowMajor {s : Shape} {codes : List Int} (h : codes.length = s.size) :
    s.indices.map (fun index => codes[((rowMajor s).placeAt index).toNat]?.getD 0) = codes := by
  have hp : s.indices.map (rowMajor s).placeAt =
      (List.range s.size).map fun (n : Nat) => (n : Int) := by
    rw [← places_rowMajor, places_eq, shape_rowMajor]
  have hc : s.indices.map (fun index => codes[((rowMajor s).placeAt index).toNat]?.getD 0) =
      (s.indices.map (rowMajor s).placeAt).map fun p => codes[p.toNat]?.getD 0 := by
    rw [List.map_map]
    rfl
  rw [hc, hp, List.map_map]
  refine List.ext_getElem (by simp [h]) fun n hn hn' => ?_
  simp [hn']

end Layout

end Hyperslab
