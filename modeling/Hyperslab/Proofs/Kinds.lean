import Hyperslab.Proofs.Success

/-!
# The same on both kinds of array

A host array and a tensor with the same elements may lie in memory in different ways,
and a tensor is walked forward only.  What a call gives depends on the elements alone,
so it is the same for both, as long as both libraries can do what it asks for.
-/

namespace Hyperslab

namespace View

/-- A host array and a tensor with the same elements, each in a memory of its own. -/
structure Twins (x : View) (s : Store) (y : View) (t : Store) : Prop where
  host : x.kind = .host
  tensor : y.kind = .tensor
  proper : x.Proper s
  properTensor : y.Proper t
  type_eq : x.type = y.type
  shape_eq : x.shape = y.shape
  codes_eq : x.codes s = y.codes t

/-- Arrays with the same elements have the same one at each index. -/
theorem elementAt_congr {x y : View} {s t : Store} (hshape : x.shape = y.shape)
    (hcodes : x.codes s = y.codes t) {index : List Int} (hi : index ∈ x.shape.indices) :
    x.elementAt s index = y.elementAt t index := by
  rw [codes_eq_map, codes_eq_map, ← hshape] at hcodes
  exact List.map_inj_left.mp hcodes index hi

end View

/-- A configuration that leaves an array of a kind to its own library. -/
def Config.Runs (c : Config) (kind : ArrayKind) : Prop :=
  (c.backend = .auto ∨ c.backend = .fixed kind) ∧ (c.device = "auto" ∨ c.device = "cpu")

namespace Config

variable {c d : Config} {v x y u : View} {r : Resolution} {s s' t t' : Store}

theorem Runs.choose {kind : ArrayKind} (h : c.Runs kind) (hk : v.kind = kind) :
    ∃ b, Backend.choose c.backend c.device [.array v] = .ok b ∧ v.kind = b.kind := by
  obtain ⟨hbackend, hdevice⟩ := h
  subst hk
  have hsample : [Operand.array v].any Operand.isTensor = (v.kind == .tensor) := Bool.or_false _
  unfold Backend.choose
  rw [hsample]
  cases hk : v.kind with
  | host =>
    rw [hk] at hbackend
    refine ⟨.host, ?_, rfl⟩
    rcases hbackend with hb | hb <;> rcases hdevice with hd | hd <;> rw [hb, hd] <;> rfl
  | tensor =>
    rw [hk] at hbackend
    rcases hdevice with hd | hd
    · refine ⟨.tensor .auto, ?_, rfl⟩
      rcases hbackend with hb | hb <;> rw [hb, hd] <;> rfl
    · refine ⟨.tensor (.named "cpu"), ?_, rfl⟩
      rcases hbackend with hb | hb <;> rw [hb, hd] <;> rfl

theorem seen_slice_eq {spec : Value} {w : Workspace} {b : Backend} (hx : x.Proper w.store)
    (hb : Backend.choose c.backend c.device [.array x] = .ok b) (hkind : x.kind = b.kind)
    (hr : Resolution.ofValue x.shape spec = .ok r) (hcap : x.shape.length ≤ c.maxRank)
    (hmade : w.store.Affords x.kind x.type r.finalShape)
    (hopens : (x.layout.window r.intervals r.processingShape).Addressable x.kind x.type) :
    seen (c.slice (.array x) spec w) =
      .ok ⟨x.type, r.finalShape, r.selected.map (x.elementAt w.store)⟩ := by
  obtain ⟨hfits, hinput⟩ := Resolution.ofValue_fits hr
  have haxes := Resolution.ofValue_rank hr
  obtain ⟨out, w', hout⟩ := slice_returns hx.within hb hkind hr hmade
    (fun h0 _ => ⟨_, Walker.ofRank_of_le h0 (haxes ▸ hcap)⟩)
    fun _ hsize => View.opens_of_addressable hx.within hfits hinput hsize hopens
  obtain ⟨r', hr', _, hshow⟩ := slice_shows hx.within hout
  obtain rfl : r = r' := Except.ok.inj (hr.symm.trans hr')
  rw [hout, seen, hshow.type_eq, hshow.shape_eq, hshow.codes_eq]

/-- Writes of the same values to arrays with the same elements. -/
theorem Writes.codes_congr {u' : View} (h : c.Writes x r u s s') (h' : d.Writes y r u' t t')
    (hshape : x.shape = y.shape) (hcodes : x.codes s = y.codes t)
    (hvalues : u.codes s = u'.codes t) : x.codes s' = y.codes t' := by
  obtain ⟨hwritten, hothers⟩ := h.elements
  obtain ⟨hwritten', hothers'⟩ := h'.elements
  rw [View.codes_eq_map, View.codes_eq_map, ← hshape]
  refine List.map_congr_left fun index hi => ?_
  by_cases hm : index ∈ r.selected
  · rw [hvalues, ← hwritten'] at hwritten
    exact List.map_inj_left.mp hwritten index hm
  · rw [hothers index hi hm, hothers' index (hshape ▸ hi) hm]
    exact View.elementAt_congr hshape hcodes hi

variable {shape : Shape} {spec : Value} {w w' : Workspace}

theorem slice_twins (hxy : x.Twins w.store y w'.store) (hc : c.Runs .host) (hd : d.Runs .tensor)
    (hr : Resolution.ofValue x.shape spec = .ok r) (hcap : x.shape.length ≤ c.maxRank)
    (hcap' : x.shape.length ≤ d.maxRank) (hmade : w.store.Affords .host x.type r.finalShape)
    (hmade' : w'.store.Affords .tensor y.type r.finalShape)
    (hopens : (x.layout.window r.intervals r.processingShape).Addressable .host x.type)
    (hopens' : (y.layout.window r.intervals r.processingShape).Addressable .tensor y.type) :
    ∃ l, seen (c.slice (.array x) spec w) = .ok l ∧ seen (d.slice (.array y) spec w') = .ok l := by
  obtain ⟨b, hb, hkind⟩ := hc.choose hxy.host
  obtain ⟨b', hb', hkind'⟩ := hd.choose hxy.tensor
  have hr' : Resolution.ofValue y.shape spec = .ok r := hxy.shape_eq ▸ hr
  obtain ⟨hfits, hinput⟩ := Resolution.ofValue_fits hr
  rw [hxy.shape_eq] at hcap'
  refine ⟨_, seen_slice_eq hxy.proper hb hkind hr hcap (hxy.host ▸ hmade)
    (hxy.host ▸ hopens), ?_⟩
  rw [seen_slice_eq hxy.properTensor hb' hkind' hr' hcap' (hxy.tensor ▸ hmade')
    (hxy.tensor ▸ hopens'), ← hxy.type_eq]
  refine congrArg (fun codes => Except.ok (Literal.mk x.type r.finalShape codes)) ?_
  refine List.map_congr_left fun index hi => ?_
  have hmem := Resolution.mem_of_mem_selected hfits hi
  rw [hinput] at hmem
  exact (View.elementAt_congr hxy.shape_eq hxy.codes_eq hmem).symm

theorem grad_twins {sh sh' : Operand} (hxy : x.Twins w.store y w'.store) (hc : c.Runs .host)
    (hd : d.Runs .tensor) (hsh : sh.shape w.store = .ok shape)
    (hsh' : sh'.shape w'.store = .ok shape) (hr : Resolution.ofValue shape spec = .ok r)
    (hcap : shape.length ≤ c.maxRank) (hcap' : shape.length ≤ d.maxRank)
    (hmade : w.store.Affords .host x.type shape) (hmade' : w'.store.Affords .tensor y.type shape)
    (hshape : x.shape = r.finalShape)
    (hopens : ((Layout.rowMajor shape).window r.intervals r.processingShape).Addressable .host
      x.type)
    (hopens' : ((Layout.rowMajor shape).window r.intervals r.processingShape).Addressable .tensor
      y.type) :
    ∃ l, seen (c.grad sh spec (.array x) w) = .ok l ∧
      seen (d.grad sh' spec (.array y) w') = .ok l := by
  obtain ⟨b, hb, hkind⟩ := hc.choose hxy.host
  obtain ⟨b', hb', hkind'⟩ := hd.choose hxy.tensor
  have haxes := Resolution.ofValue_rank hr
  obtain ⟨out, w₁, hout⟩ := grad_succeeds hsh hb hkind hr hshape (haxes ▸ hcap)
    (hxy.host ▸ hmade) (hxy.host ▸ hopens)
  obtain ⟨out', w₂, hout'⟩ := grad_succeeds hsh' hb' hkind' hr (hxy.shape_eq ▸ hshape)
    (haxes ▸ hcap') (hxy.tensor ▸ hmade') (hxy.tensor ▸ hopens')
  obtain ⟨_, _, r₁, _, s, hin, _, _, hr₁, _, hext, hshow, hfrom, hwrites⟩ :=
    grad_eq_ok hxy.proper.within hout
  obtain ⟨_, _, r₂, _, t, hin', _, _, hr₂, _, hext', hshow', hfrom', hwrites'⟩ :=
    grad_eq_ok hxy.properTensor.within hout'
  obtain rfl := Except.ok.inj (hsh.symm.trans hin)
  obtain rfl := Except.ok.inj (hsh'.symm.trans hin')
  obtain rfl : r = r₁ := Except.ok.inj (hr.symm.trans hr₁)
  obtain rfl : r = r₂ := Except.ok.inj (hr.symm.trans hr₂)
  have hsame := View.codes_extends hxy.proper.within hext
  have hsame' := View.codes_extends hxy.properTensor.within hext'
  have hvalues := hfrom.trans (hsame.trans (hxy.codes_eq.trans (hsame'.symm.trans hfrom'.symm)))
  have hcodes := hwrites.codes_congr hwrites' (hshow.shape_eq.trans hshow'.shape_eq.symm)
    (hshow.codes_eq.trans hshow'.codes_eq.symm) hvalues
  refine ⟨_, congrArg seen hout, ?_⟩
  rw [hout', seen, hcodes, hshow.type_eq, hshow'.type_eq, hshow.shape_eq, hshow'.shape_eq,
    hxy.type_eq]

theorem assign_twins {u u' : View} (hxy : x.Twins w.store y w'.store)
    (hu : u.Twins w.store u' w'.store) (hc : c.Runs .host) (hd : d.Runs .tensor)
    (hr : Resolution.ofValue x.shape spec = .ok r) (hcap : x.shape.length ≤ c.maxRank)
    (hcap' : x.shape.length ≤ d.maxRank) (hshape : u.shape = r.finalShape)
    (hwriteable : x.writeable = true) (hleaf : y.tracking ≠ .leaf) (hdistinct : x.places.Nodup)
    (hdistinct' : y.places.Nodup) (hguarded : u'.Guarded y)
    (hmemory : u.type ≠ x.type → View.bytes .host x.type r.finalShape ≤ w.store.limit ∧
      View.bytes .tensor x.type r.finalShape ≤ w'.store.limit)
    (hopens : (x.layout.window r.intervals r.processingShape).Addressable .host x.type)
    (hopens' : (y.layout.window r.intervals r.processingShape).Addressable .tensor y.type) :
    ∃ w₁ w₂, c.assign (.array x) spec (.array u) w = .ok () w₁ ∧
      d.assign (.array y) spec (.array u') w' = .ok () w₂ ∧
      x.codes w₁.store = y.codes w₂.store := by
  obtain ⟨b, hb, hkind⟩ := hc.choose hxy.host
  obtain ⟨b', hb', hkind'⟩ := hd.choose hxy.tensor
  have hr' : Resolution.ofValue y.shape spec = .ok r := hxy.shape_eq ▸ hr
  have haxes := Resolution.ofValue_rank hr
  obtain ⟨hfits, hinput⟩ := Resolution.ofValue_fits hr
  have htarget : b.target (.array x) = .ok x := by
    simp [Backend.target, hkind, hwriteable, hxy.proper.untracked hxy.host]
  have htarget' : b'.target (.array y) = .ok y := by
    simp [Backend.target, ← hkind', hxy.tensor, hleaf]
  have hseen : u.ofKind b.kind = .ok u := by
    rw [← hkind, hxy.host, ← hu.host]
    exact u.ofKind_self
  have hseen' : u'.ofKind b'.kind = .ok u' := by
    rw [← hkind', hxy.tensor, ← hu.tensor]
    exact u'.ofKind_self
  have hrank : r.processingShape.length ≤ maxAxes := by
    rw [Resolution.length_processingShape, haxes]
    exact View.checkShape_rank hxy.proper.valid hxy.host
  obtain ⟨w₁, hrun⟩ := assign_succeeds hu.proper.within hb htarget hseen hr hshape
    (fun hne => hkind ▸ hxy.host ▸ (hmemory hne).1)
    (fun h0 hsize => ⟨⟨_, Walker.ofRank_of_le h0 (haxes ▸ hcap)⟩, fun _ => hrank,
      View.takes_of_addressable hxy.proper.within hdistinct hfits hinput hsize
        (fun _ => hwriteable) (hxy.host ▸ hopens)⟩) hxy.proper.within.buffer
  obtain ⟨w₂, hrun'⟩ := assign_succeeds hu.properTensor.within hb' htarget' hseen' hr'
    (hu.shape_eq ▸ hshape)
    (fun hne => hkind' ▸ hxy.tensor ▸ hxy.type_eq ▸
      (hmemory (hu.type_eq.trans_ne (hxy.type_eq ▸ hne))).2)
    (fun h0 hsize => ⟨⟨_, Walker.ofRank_of_le h0 (haxes ▸ hcap')⟩, fun _ => hrank,
      View.takes_of_addressable hxy.properTensor.within hdistinct' hfits
        (hinput.trans hxy.shape_eq) hsize (fun hhost => nomatch hxy.tensor.symm.trans hhost)
        (hxy.tensor ▸ hopens')⟩) hxy.properTensor.within.buffer
  refine ⟨w₁, w₂, hrun, hrun', ?_⟩
  have hhost : u.Guarded x := fun htensor => nomatch hxy.host.symm.trans htensor
  obtain ⟨_, r₁, _, s, _, _, hr₁, _, _, hext, hcodes, hwrites⟩ :=
    assign_eq_ok hxy.proper.within hdistinct hu.proper.within (.inl hhost) hrun
  obtain ⟨_, r₂, _, t, _, _, hr₂, _, _, hext', hcodes', hwrites'⟩ :=
    assign_eq_ok hxy.properTensor.within hdistinct' hu.properTensor.within (.inl hguarded) hrun'
  obtain rfl : r = r₁ := Except.ok.inj (hr.symm.trans hr₁)
  obtain rfl : r = r₂ := Except.ok.inj (hr'.symm.trans hr₂)
  refine hwrites.codes_congr hwrites' hxy.shape_eq ?_ ?_
  · rw [View.codes_extends hxy.proper.within hext,
      View.codes_extends hxy.properTensor.within hext', hxy.codes_eq]
  · rw [hcodes, hcodes', hu.codes_eq, hu.type_eq, hxy.type_eq]

end Config

namespace Sample

/-- A memory with the elements of `reversed` in row-major order, those of `pair`, and one element
twice. -/
def tensors : Workspace :=
  { store := { buffers := #[#[15, 14, 13, 12, 11, 10], #[20, 21], #[20, 20]] } }

def forward : View :=
  { kind := .tensor, type := .int64, buffer := 0, layout := .rowMajor [2, 3] }

def tensorPair : View :=
  { kind := .tensor, type := .int64, buffer := 1, layout := .rowMajor [1, 2] }

theorem reversed_forward : reversed.Twins cells.store forward tensors.store :=
  ⟨rfl, rfl, by decide, by decide, rfl, rfl, by decide⟩

theorem pair_tensorPair : pair.Twins cells.store tensorPair tensors.store :=
  ⟨rfl, rfl, by decide, by decide, rfl, rfl, by decide⟩

/-- A row in the second buffer, of any kind and type. -/
def row (kind : ArrayKind) (type : ElementType) (n : Nat) : View :=
  { kind, type, buffer := 1, layout := .rowMajor [n] }

/-- All of an array behind so many new axes. -/
def behindAxes (n : Nat) : Value :=
  .masks { begins := List.replicate n 0, ends := List.replicate n 0, strides := List.replicate n 1
           newAxisMask := 2 ^ n - 1 }

/-- Backward from the second element, in the longest step of 64 bits. -/
def leap : Value :=
  .masks { begins := [1], ends := [-9], strides := [-9223372036854775808] }

/-- The first column of everything. -/
def firstColumn : Value :=
  .masks { begins := [0, 0], ends := [0, 1], strides := [1, 1], beginMask := 1, endMask := 1
           shrinkMask := 2 }

/-- Two elements in one cell, and a tensor with the same elements in two. -/
def doubled : View :=
  { kind := .host, type := .int64, buffer := 1, layout := ⟨0, [⟨2, 0⟩]⟩ }

def apart : View :=
  { kind := .tensor, type := .int64, buffer := 2, layout := .rowMajor [2] }

end Sample

end Hyperslab
