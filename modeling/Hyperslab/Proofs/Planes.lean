import Hyperslab.Proofs.Returns

/-!
# Rows copied into an array that is given

The rows of a plane are written through the processing shape of the array that is to
have them.  The two shapes differ by axes of extent one only, so that is a window onto
the array whatever its strides, and what is written there is in the array itself.
-/

namespace Hyperslab

open Store (Updates)

namespace View

variable {v out : View} {r : Resolution} {s s' : Store}

/-- A writeable host array that what is selected of another one fits into: it has a cell for each
element, distinct ones, and none of the other's. -/
structure Accepts (v out : View) (r : Resolution) (s : Store) : Prop where
  within : out.Within s
  distinct : out.places.Nodup
  apart : v.shares out = false
  type : out.type = v.type
  shape : out.shape = r.finalShape
  kind : out.kind = .host
  writeable : out.writeable = true

namespace Accepts

/-- The processing shape is taken on in place. -/
theorem reshape (h : v.Accepts out r s) (hf : r.Fits) (hrank : r.axes.length = 2) :
    ∃ l, out.reshape r.processingShape s = .ok (out.withLayout l) s ∧
      l.shape = r.processingShape ∧ l.places = out.places := by
  refine reshape_units s (fun _ => ?_) ?_
  · rw [r.length_processingShape, hrank]
    decide
  · rw [h.shape, Resolution.filter_finalShape hf]

theorem cells_apart (h : v.Accepts out r s) :
    v.buffer = out.buffer → ∀ p ∈ v.places, p ∉ out.places := by
  intro hb p hp hp'
  have hshares : v.shares out = true := shares_iff.mpr ⟨hb, p, hp, hp'⟩
  rw [h.apart] at hshares
  cases hshares

/-- The rows are all copied, each into its place. -/
theorem copyPlane (h : v.Accepts out r s) (hv : v.Within s) (hf : r.Fits)
    (hr : r.inputShape = v.shape) (hsimple : r.isSimple = true) (hrank : r.axes.length = 2) :
    ∃ s', v.copyPlane r (some out) s = .ok out s' ∧
      Updates s s' out.buffer out.places (r.selected.map (v.elementAt s)) := by
  obtain ⟨l, hreshape, hl, hplaces⟩ := h.reshape hf hrank
  obtain ⟨rows, cols, haxes⟩ := List.length_eq_two.mp hrank
  obtain ⟨hsource, hprocessing⟩ := plane_shapes hr haxes
  obtain ⟨_, ⟨hcount, hrows⟩, first, last, hfirst, hlast, hrun, hwidth⟩ :=
    plane_bounds hf haxes hsimple
  have hwithin : (out.withLayout l).Within s := (withLayout_shows h.within hl hplaces).within
  have hnodup : (out.withLayout l).places.Nodup := by
    show l.places.Nodup
    rw [hplaces]
    exact h.distinct
  have hapart : v.buffer = out.buffer → ∀ p ∈ v.places, p ∉ l.places := by
    rw [hplaces]
    exact h.cells_apart
  obtain ⟨u, s', hcopy⟩ := copyRows_returns (i := 0) hwithin hnodup hv h.kind h.writeable
    h.type.symm (hl.trans hprocessing) hsource (by omega) hrows hrun hwidth
  rw [← hcount, ← hfirst, ← hlast] at hcopy
  have hupd := copyPlane_updates hv hf hr haxes hsimple hwithin hnodup hapart h.type.symm hl hcopy
  refine ⟨s', ?_, hplaces ▸ hupd⟩
  unfold View.copyPlane
  rw [Resolution.intervals, haxes, List.map_cons, List.map_cons, List.map_nil]
  simp only [bind_eq_ok, pure_eq_ok]
  exact ⟨out, s, ⟨rfl, rfl⟩, _, s, hreshape, u, s', hcopy, rfl, rfl⟩

end Accepts

/-- Rows copied into a given array that accepts them: the copy succeeds, gives the array back and
leaves the elements selected in it, in row-major order, and every other cell is as it was. -/
theorem copyPlane_fills {spec : Value} (hv : v.Within s) (hrank : v.shape.length = 2)
    (hr : Resolution.ofValue v.shape spec = .ok r) (hsteps : ∀ i ∈ r.intervals, i.step = 1)
    (hout : v.Accepts out r s) :
    ∃ s', v.copyPlane r (some out) s = .ok out s' ∧
      out.codes s' = (r.processingShape.indices.map fun k => v.elementAt s (r.indexAt k)) ∧
      ∀ b < s.buffers.size, s'.extent b = s.extent b ∧
        ∀ p, (b = out.buffer → p ∉ out.places) → s'.read b p = s.read b p := by
  obtain ⟨hf, hshape⟩ := Resolution.ofValue_fits hr
  have hsimple : r.isSimple = true := by
    refine List.all_eq_true.mpr fun a ha => beq_iff_eq.mpr (hsteps a.interval ?_)
    exact List.mem_map_of_mem ha
  obtain ⟨s', hcopy, hupd⟩ := hout.copyPlane hv hf hshape hsimple
    ((Resolution.ofValue_rank hr).trans hrank)
  refine ⟨s', hcopy, ?_, fun b hb => ⟨hupd.extent b hb, hupd.frame b hb⟩⟩
  have hwritten : out.codes s' = r.selected.map (v.elementAt s) := hupd.written
  rw [hwritten, Resolution.selected, List.map_map]
  rfl

end View

namespace Sample

/-- Three rows of four cells. -/
def table : Store := { buffers := #[#[0, 1, 2, 3, 4, 5, 6, 7, 8, 9, 10, 11]] }

/-- The first two columns of the table. -/
def leading : View :=
  { kind := .host, type := .int64, buffer := 0, layout := ⟨0, [⟨3, 4⟩, ⟨2, 1⟩]⟩ }

/-- Two cells of the third column, one above the other. -/
def beside : View :=
  { kind := .host, type := .int64, buffer := 0, layout := ⟨2, [⟨2, 4⟩, ⟨1, 7⟩]⟩ }

/-- The middle row alone, with a new axis behind its columns. -/
def upright : Value :=
  .masks {
    begins := [1, 0, 0], ends := [0, 0, 0], strides := [1, 1, 1]
    beginMask := 2, endMask := 2, newAxisMask := 4, shrinkMask := 1 }

theorem copyPlane_fills_beside : ∃ r, Resolution.ofValue leading.shape upright = .ok r ∧
    leading.Accepts beside r table ∧
    ∃ s', leading.copyPlane r (some beside) table = .ok beside s' ∧
      beside.codes s' =
        r.processingShape.indices.map fun k => leading.elementAt table (r.indexAt k) := by
  have hresolved : ∃ r, Resolution.ofValue leading.shape upright = .ok r ∧
      (∀ i ∈ r.intervals, i.step = 1) ∧ beside.shape = r.finalShape :=
    ⟨_, rfl, by decide, by decide⟩
  obtain ⟨r, hr, hsteps, hshape⟩ := hresolved
  have haccepts : leading.Accepts beside r table :=
    { within := by decide, distinct := by decide, apart := by decide, type := rfl
      shape := hshape, kind := rfl, writeable := rfl }
  obtain ⟨s', hcopy, hcodes, _⟩ :=
    View.copyPlane_fills (v := leading) (by decide) rfl hr hsteps haccepts
  exact ⟨r, hr, haccepts, s', hcopy, hcodes⟩

end Sample

end Hyperslab
