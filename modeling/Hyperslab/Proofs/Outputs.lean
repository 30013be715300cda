import Hyperslab.CommandLine
import Hyperslab.Proofs.Letters
import Hyperslab.Proofs.Rereading
import Hyperslab.Proofs.Slice

/-!
# Output files read back

An array is written to a path with a known ending and read again from the same path.
An array file and an archive give the array as it was, and a text of data gives the
same amounts.
-/

namespace Hyperslab

/-! ## Paths -/

namespace Path

/-- A path that ends in a small ending ends in it in any case. -/
theorem hasSuffix_of_isSuffix {suffix path : String}
    (hlower : (suffix.toList.all fun c => Text.lowerChar c == [c]) = true)
    (h : suffix.toList <:+ path.toList) : hasSuffix suffix path = true := by
  obtain ⟨front, hfront⟩ := h
  have hlast := Text.lowerFrom_suffix [] front suffix.toList
  have hsmall : ∀ c ∈ suffix.toList, Text.lowerChar c = [c] := fun c hc =>
    eq_of_beq (List.all_eq_true.mp hlower c hc)
  rw [Text.lowerFrom_eq_self hsmall, hfront] at hlast
  exact List.isSuffixOf_iff_suffix.mpr hlast

/-- A path ends in one of two endings with different last characters. -/
theorem hasSuffix_unique {suffix other path : String} (h : hasSuffix suffix path = true)
    (hother : hasSuffix other path = true) {c d : Char} (hc : suffix.toList.getLast? = some c)
    (hd : other.toList.getLast? = some d) : c = d := by
  have hlast : ∀ {s : String} {e : Char}, hasSuffix s path = true → s.toList.getLast? = some e →
      (Text.lower path.toList).getLast? = some e := by
    intro s e hs he
    rw [hasSuffix, List.isSuffixOf_iff_suffix] at hs
    obtain ⟨front, hfront⟩ := hs
    rw [← hfront, List.getLast?_append, he, Option.some_or]
  exact Option.some.inj ((hlast h hc).symm.trans (hlast hother hd))

theorem form_of_npz {path : String} (h : hasSuffix ".npz" path = true) : form path = .archive :=
  if_pos h

theorem form_of_json {path : String} (h : hasSuffix ".json" path = true) : form path = .json := by
  have hnpz : ¬ hasSuffix ".npz" path = true := fun hnpz =>
    absurd (hasSuffix_unique h hnpz (c := 'n') (d := 'z') rfl rfl) (by decide)
  rw [form, if_neg hnpz, if_pos h]

theorem form_of_npy {path : String} (h : hasSuffix ".npy" path = true) : form path = .array := by
  have hnpz : ¬ hasSuffix ".npz" path = true := fun hnpz =>
    absurd (hasSuffix_unique h hnpz (c := 'y') (d := 'z') rfl rfl) (by decide)
  have hjson : ¬ hasSuffix ".json" path = true := fun hjson =>
    absurd (hasSuffix_unique h hjson (c := 'y') (d := 'n') rfl rfl) (by decide)
  rw [form, if_neg hnpz, if_neg hjson]

theorem withSuffix_of_isSuffix {suffix path : String} (h : suffix.toList <:+ path.toList) :
    withSuffix suffix path = path :=
  if_pos (List.isSuffixOf_iff_suffix.mpr h)

/-- The paths that are written as they are given: with an ending in small letters, or with that of a
text of data in any case. -/
def Kept (path : String) : Prop :=
  ".npy".toList <:+ path.toList ∨ ".npz".toList <:+ path.toList ∨ hasSuffix ".json" path = true

end Path

/-! ## Layouts -/

theorem Layout.shape_columnMajor (s : Shape) : (columnMajor s).shape = s := by
  show (columnMajorDims 1 s).map (·.extent) = s
  generalize 1 = stride
  induction s generalizing stride with
  | nil => rfl
  | cons n s ih => rw [columnMajorDims, List.map_cons, ih]

/-! ## Files -/

namespace Files

variable {fs saved : Files} {path : String} {c : FileContent} {a : StoredArray}

theorem find?_insert (fs : Files) (path : String) (c : FileContent) :
    (fs.insert path c).find? path = some c := by
  unfold insert find?
  split_ifs with hany
  · induction fs with
    | nil => cases hany
    | cons f fs ih =>
      rw [List.map_cons]
      by_cases hf : f.1 = path
      · rw [if_pos (beq_iff_eq.mpr hf)]
        exact List.lookup_cons_self
      · rw [if_neg (by simpa using hf), List.lookup_cons, beq_eq_false_iff_ne.mpr (Ne.symm hf)]
        refine ih ?_
        rw [List.any_cons, beq_eq_false_iff_ne.mpr hf, Bool.false_or] at hany
        exact hany
  · rw [List.lookup_append]
    have hnone : List.lookup path fs = none := by
      rw [List.lookup_eq_none_iff]
      intro f hf
      rw [Bool.not_eq_true, List.any_eq_false] at hany
      exact bne_iff_ne.mpr fun h => hany f hf (beq_iff_eq.mpr h.symm)
    rw [hnone, Option.none_or]
    exact List.lookup_cons_self

theorem load_eq_ok (h : fs.find? path = some c) (hload : c.load path = .ok a) :
    fs.load path = .ok (some a) := by
  rw [load, h]
  dsimp only
  rw [hload]
  rfl

theorem save_eq_ok (h : fs.save path a = .ok saved) :
    saved = fs.insert (a.written path).1 (a.written path).2 := by
  unfold save at h
  generalize a.written path = target at h
  cases hparents : Path.parents path with
  | nil =>
    rw [hparents] at h
    dsimp only at h
    split_ifs at h
    · cases h
    · exact (except_pure_eq_ok.mp h).symm
  | cons p more =>
    rw [hparents] at h
    dsimp only at h
    split_ifs at h
    all_goals first | cases h; done | exact (except_pure_eq_ok.mp h).symm

/-- What was saved under its own path is loaded from it. -/
theorem load_save {back : StoredArray} (hsave : fs.save path a = .ok saved)
    (hwritten : a.written path = (path, c)) (hload : c.load path = .ok back) :
    (saved.find? path).isSome = true ∧ saved.load path = .ok (some back) := by
  have hsaved := save_eq_ok hsave
  rw [hwritten] at hsaved
  have hfind := find?_insert fs path c
  rw [← hsaved] at hfind
  exact ⟨by rw [hfind]; rfl, load_eq_ok hfind hload⟩

end Files

/-! ## Writing and reading an array -/

namespace StoredArray

variable {fs saved : Files} {path : String} {a : StoredArray}

/-- What is read from a path after an array was written to it. -/
structure ReadBack (path : String) (a back : StoredArray) : Prop where
  /-- An array file and an archive give the array itself. -/
  same : Path.hasSuffix ".json" path = false → back = a
  lists : Path.hasSuffix ".json" path = true → a.literal.ReadBack back.literal

/-- A path of another form than a text of data gives the array as it was. -/
theorem ReadBack.of_form (h : Path.form path ≠ .json) : a.ReadBack path a :=
  ⟨fun _ => rfl, fun hjson => absurd (Path.form_of_json hjson) h⟩

theorem exists_readBack (hpath : Path.Kept path) (hsound : a.literal.Sound)
    (hrank : a.literal.shape.length ≤ maxAxes) (hsave : fs.save path a = .ok saved) :
    (saved.find? path).isSome = true ∧ ∃ back, saved.load path = .ok (some back) ∧
      a.ReadBack path back := by
  rcases hpath with hnpy | hnpz | hjson
  · have hsuffix := Path.hasSuffix_of_isSuffix (by decide) hnpy
    have hform := Path.form_of_npy hsuffix
    have hwritten : a.written path = (path, .array a) := by
      rw [written, hform]
      dsimp only
      rw [Path.withSuffix_of_isSuffix hnpy]
    have hback : FileContent.load path (.array a) = .ok a := by
      rw [FileContent.load, hform]
      rfl
    obtain ⟨hfound, hload⟩ := Files.load_save hsave hwritten hback
    exact ⟨hfound, a, hload, .of_form (by simp [hform])⟩
  · have hsuffix := Path.hasSuffix_of_isSuffix (by decide) hnpz
    have hform := Path.form_of_npz hsuffix
    have hwritten : a.written path = (path, .archive [("arr_0", a)]) := by
      rw [written, hform]
      dsimp only
      rw [Path.withSuffix_of_isSuffix hnpz]
    have hback : FileContent.load path (.archive [("arr_0", a)]) = .ok a := by
      rw [FileContent.load, hform]
      rfl
    obtain ⟨hfound, hload⟩ := Files.load_save hsave hwritten hback
    exact ⟨hfound, a, hload, .of_form (by simp [hform])⟩
  · have hform := Path.form_of_json hjson
    have hwritten : a.written path = (path, .text (Json.write a.literal.toValue)) := by
      rw [written, hform]
    obtain ⟨back, hdata, hread⟩ := Literal.exists_readBack hsound hrank
    have hback : FileContent.load path (.text (Json.write a.literal.toValue)) =
        .ok ⟨back, false⟩ := by
      rw [FileContent.load, hform]
      dsimp only
      rw [hdata]
      rfl
    obtain ⟨hfound, hload⟩ := Files.load_save hsave hwritten hback
    exact ⟨hfound, _, hload, fun h => absurd hjson (by simp [h]), fun _ => hread⟩

/-- The layout of the cells that a stored array is read into. -/
def layout (a : StoredArray) : Layout :=
  if a.columnMajor then .columnMajor a.literal.shape else .rowMajor a.literal.shape

theorem layout_fills (a : StoredArray) : a.layout.Fills := by
  unfold layout
  split
  · exact Layout.columnMajor_fills _
  · exact Layout.rowMajor_fills _

theorem shape_layout (a : StoredArray) : a.layout.shape = a.literal.shape := by
  unfold layout
  split
  · exact Layout.shape_columnMajor _
  · exact Layout.shape_rowMajor _

/-- An array that is read in shows its elements, in whichever order they are stored. -/
theorem toView_shows {v : View} {s s' : Store}
    (hlen : a.literal.codes.length = a.literal.shape.size) (h : a.toView s = .ok v s') :
    v.Shows s' a.literal.type a.literal.shape a.literal.codes := by
  have hsize : a.literal.codes.length = a.layout.size := by
    rw [hlen, Layout.size, shape_layout]
  have h : View.create .host a.literal.type a.layout a.literal.codes s = .ok v s' := h
  have hshow := (View.create_shows h a.layout_fills hsize).2
  rwa [shape_layout] at hshow

end StoredArray

/-! ## Commands -/

namespace CommandLine

variable {a result : StoredArray} {spec : String} {kind : ArrayKind} {w w' : Workspace}

/-- The stages of an extraction from a stored array. -/
theorem extract_eq_ok (h : extract a spec kind w = .ok result w') :
    ∃ v s out, a.toView w.store = .ok v s ∧
      Config.slice { backend := .fixed kind } (.array v) (.text spec) { w with store := s } =
        .ok out w' ∧
      out.layout.rank ≤ maxAxes ∧ result = .ofView out w'.store := by
  unfold extract at h
  simp only [bind_eq_ok, onStore_eq_ok] at h
  obtain ⟨v, w₁, ⟨s, hv, rfl⟩, out, w₂, hout, h⟩ := h
  split_ifs at h with hrank
  · obtain ⟨_, _, hthrow, _⟩ := bind_eq_ok.mp h
    cases hthrow
  · simp only [bind_eq_ok, get_eq_ok, pure_eq_ok] at h
    obtain ⟨_, _, ⟨rfl, rfl⟩, rfl, rfl⟩ := h
    exact ⟨v, s, out, hv, hout, not_lt.mp hrank, rfl⟩

/-- The elements that are extracted are elements of the array. -/
theorem extract_sound (ha : a.literal.Sound) (h : extract a spec kind w = .ok result w') :
    result.literal.Sound ∧ result.literal.shape.length ≤ maxAxes := by
  obtain ⟨v, s, out, hv, hout, hrank, rfl⟩ := extract_eq_ok h
  have hshow := StoredArray.toView_shows ha.length_eq hv
  obtain ⟨r, hr, -, hcut⟩ := Config.slice_shows hshow.within hout
  obtain ⟨hfits, hshape⟩ := Resolution.ofValue_fits hr
  have htype : out.type = a.literal.type := hcut.type_eq.trans hshow.type_eq
  refine ⟨⟨?_, View.length_codes out _, fun c hc => ?_⟩, ?_⟩
  · exact fun h => ha.numeric (htype.symm.trans h)
  · show out.type.IsCode c
    have hc : c ∈ out.codes w'.store := hc
    rw [hcut.codes_eq, Resolution.selected, List.map_map] at hc
    obtain ⟨k, hk, rfl⟩ := List.mem_map.mp hc
    rw [htype]
    refine ha.isCode _ ?_
    rw [← hshow.codes_eq, View.codes_eq_map]
    refine List.mem_map_of_mem ?_
    rw [← hshape]
    exact Resolution.indexAt_mem hfits hk
  · show out.layout.shape.length ≤ maxAxes
    rw [Layout.shape, List.length_map]
    exact hrank

variable {args : List String} {files : Files} {input path : String} {explain : Bool}

/-- The stages of a run that extracts to a file. -/
theorem run_slice_eq_exit
    (hrequest : Request.read args = .ok (.slice input spec (some path) kind explain))
    (hdone : (run args files).ending = .exit 0) :
    ∃ a result w, files.load input = .ok (some a) ∧ extract a spec kind {} = .ok result w ∧
      files.save path result = .ok (run args files).files := by
  have hrun : run args files = runSlice files input spec (some path) kind explain := by
    rw [run, hrequest]
  have hfailed : ∀ f, (failed files f).ending ≠ .exit 0 := fun f => by
    show Ending.ofFault f ≠ _
    unfold Ending.ofFault
    split <;> nofun
  rw [hrun] at hdone ⊢
  unfold runSlice at hdone ⊢
  cases hload : files.load input with
  | error f =>
    rw [hload] at hdone
    exact absurd hdone (hfailed f)
  | ok found =>
    cases found with
    | none =>
      rw [hload] at hdone
      cases hdone
    | some a =>
      rw [hload] at hdone
      dsimp only at hdone ⊢
      cases hextract : extract a spec kind {} with
      | error f w =>
        rw [hextract] at hdone
        exact absurd hdone (hfailed f)
      | ok result w =>
        rw [hextract] at hdone
        dsimp only at hdone ⊢
        cases hsave : files.save path result with
        | error f =>
          rw [hsave] at hdone
          exact absurd hdone (hfailed f)
        | ok saved => exact ⟨a, result, w, rfl, hextract, hsave⟩

/-- An extraction that succeeds leaves a file at its path, and what is read from it is the slice:
the same array from an array file or an archive, and the same amounts from nested lists. -/
theorem run_slice_reads_back
    (hrequest : Request.read args = .ok (.slice input spec (some path) kind explain))
    (hpath : Path.Kept path)
    (hsound : ∀ a, files.load input = .ok (some a) → a.literal.Sound)
    (hdone : (run args files).ending = .exit 0) :
    ∃ a result w, files.load input = .ok (some a) ∧ extract a spec kind {} = .ok result w ∧
      ((run args files).files.find? path).isSome = true ∧
      ∃ back, (run args files).files.load path = .ok (some back) ∧
        result.ReadBack path back := by
  obtain ⟨a, result, w, hload, hextract, hsave⟩ := run_slice_eq_exit hrequest hdone
  obtain ⟨hresult, hrank⟩ := extract_sound (hsound a hload) hextract
  exact ⟨a, result, w, hload, hextract, StoredArray.exists_readBack hpath hresult hrank hsave⟩

end CommandLine

/-! Arrays written to a text of data and read again. -/

namespace Sample

open CommandLine

/-- No rows of three. -/
def noRows : StoredArray := { literal := ⟨.float64, [0, 3], []⟩ }

/-- Two numbers of which only one fits in 64 bits with a sign. -/
def straddling : StoredArray := { literal := ⟨.uint64, [2], [9223372036854775809, 1]⟩ }

def inputFile (a : StoredArray) : Files := [("in.npy", .array a)]

def sliceTo (out spec : String) : List String := ["slice", "in.npy", "--spec", spec, "--out", out]

theorem run_slice_reads_back_reversed :
    Request.read (sliceTo "o.JSON" "::-1") =
        .ok (.slice "in.npy" "::-1" (some "o.JSON") .host false) ∧
      Path.Kept "o.JSON" ∧
      (∀ a, (inputFile straddling).load "in.npy" = .ok (some a) → a.literal.Sound) ∧
      (run (sliceTo "o.JSON" "::-1") (inputFile straddling)).ending = .exit 0 ∧
      ∃ a result w, (inputFile straddling).load "in.npy" = .ok (some a) ∧
        extract a "::-1" .host {} = .ok result w ∧
        ((run (sliceTo "o.JSON" "::-1") (inputFile straddling)).files.find? "o.JSON").isSome =
          true ∧
        ∃ back, (run (sliceTo "o.JSON" "::-1") (inputFile straddling)).files.load "o.JSON" =
            .ok (some back) ∧ result.ReadBack "o.JSON" back := by
  have hrequest : Request.read (sliceTo "o.JSON" "::-1") =
      .ok (.slice "in.npy" "::-1" (some "o.JSON") .host false) := by decide +kernel
  have hkept : Path.Kept "o.JSON" := .inr (.inr (by decide +kernel))
  have hsound : ∀ a, (inputFile straddling).load "in.npy" = .ok (some a) → a.literal.Sound := by
    intro a ha
    have hload : (inputFile straddling).load "in.npy" = .ok (some straddling) := by decide +kernel
    cases hload.symm.trans ha
    exact ⟨by decide, by decide, by decide⟩
  have hdone : (run (sliceTo "o.JSON" "::-1") (inputFile straddling)).ending = .exit 0 := by
    decide +kernel
  exact ⟨hrequest, hkept, hsound, hdone, run_slice_reads_back hrequest hkept hsound hdone⟩

/-- Nested lists lose the axes behind an empty one, and bring numbers on both sides of the greatest
one with a sign to floating point.  A path with the ending of an array file in capitals gets the
ending once more, so there is nothing to be read from it. -/
theorem lists_lose :
    ((run (sliceTo "o.json" ":") (inputFile noRows)).ending = .exit 0 ∧
      ∃ result w back, extract noRows ":" .host {} = .ok result w ∧
        (run (sliceTo "o.json" ":") (inputFile noRows)).files.load "o.json" = .ok (some back) ∧
        result.literal.shape = [0, 3] ∧ back.literal.shape = [0]) ∧
    ((run (sliceTo "o.json" ":") (inputFile straddling)).ending = .exit 0 ∧
      ∃ result w back, extract straddling ":" .host {} = .ok result w ∧
        (run (sliceTo "o.json" ":") (inputFile straddling)).files.load "o.json" =
          .ok (some back) ∧
        result.literal.amounts ≠ back.literal.amounts) ∧
    ((run (sliceTo "o.NPY" ":") (inputFile noRows)).ending = .exit 0 ∧
      (run (sliceTo "o.NPY" ":") (inputFile noRows)).files.find? "o.NPY" = none ∧
      (run (sliceTo "o.NPY" ":") (inputFile noRows)).files.load "o.NPY.npy" =
        .ok (some noRows)) := by
  have hextract : ∀ a : StoredArray, (match extract a ":" .host {} with
      | .ok r _ => some r
      | .error _ _ => none) = some a → ∃ w, extract a ":" .host {} = .ok a w := by
    intro a ha
    split at ha
    · rename_i r w hr
      exact ⟨w, Option.some.inj ha ▸ hr⟩
    · cases ha
  obtain ⟨w, hempty⟩ := hextract noRows (by decide +kernel)
  obtain ⟨w', hwide⟩ := hextract straddling (by decide +kernel)
  refine ⟨⟨by decide +kernel, noRows, w, ⟨⟨.float64, [0], []⟩, false⟩, hempty, ?_, rfl, rfl⟩,
    ⟨by decide +kernel, straddling, w',
      ⟨⟨.float64, [2], [4890909195324358656, 4607182418800017408]⟩, false⟩, hwide, ?_, ?_⟩,
    by decide +kernel, ?_, ?_⟩
  · decide +kernel
  · decide +kernel
  · decide +kernel
  · decide +kernel
  · decide +kernel

end Sample

end Hyperslab
