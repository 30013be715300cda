import Hyperslab.Proofs.Placement

/-!
# Who shares cells with whom

A result in new cells shares none with an array that was there before.  A result that
borrows its cells has the cells selected, in order, so a write through it or through
its source meets the other at one position, and only if that position was selected.
-/

namespace Hyperslab

open Store (Extends)

namespace View

variable {v w x out : View} {r : Resolution} {s t : Store}

/-- Writes a code to the element at a position in row-major order. -/
def put (v : View) (i : Nat) (code : Int) (s : Store) : Store :=
  s.write v.buffer (v.places[i]?.getD 0) code

theorem length_places (v : View) : v.places.length = v.size := Layout.length_places v.layout

/-- A write to an element of one array is seen in another where both have the same cell. -/
theorem codes_put (hv : v.Within t) (hb : w.buffer = v.buffer) {i j : Nat} (hi : i < v.size)
    (hj : j < w.size) (code : Int) : (v.codes (w.put j code t))[i]? =
      if v.places[i]? = w.places[j]? then some code else (v.codes t)[i]? := by
  rw [← length_places] at hi hj
  have hcode : ∀ t, (v.codes t)[i]? = some (t.read v.buffer v.places[i]) := by
    intro t
    rw [codes, Store.gather, List.getElem?_map, List.getElem?_eq_getElem hi, Option.map_some]
  rw [hcode, hcode, put, List.getElem?_eq_getElem hi, List.getElem?_eq_getElem hj,
    Option.getD_some, hb]
  by_cases hp : v.places[i] = w.places[j]
  · rw [if_pos (congrArg some hp), hp,
      Store.read_write_self (hp ▸ hv.cells _ (List.getElem_mem hi))]
  · rw [if_neg fun he => hp (Option.some.inj he), Store.read_write_ne fun _ => hp]

theorem Fresh.not_shares (h : Fresh s out) (hv : v.buffer < s.buffers.size) :
    out.shares v = false :=
  not_shares_of_buffer (Nat.ne_of_gt (Nat.lt_of_lt_of_le hv h.buffer))

namespace Borrows

/-- The cells of the result are cells of the source, so they are shared unless there are none. -/
theorem shares_iff (h : x.Borrows r out) (hf : r.Fits) (hr : r.inputShape = x.shape) :
    out.shares x = true ↔ r.size ≠ 0 := by
  rw [shares, h.buffer, beq_self_eq_true, Bool.true_and, List.any_eq_true]
  constructor
  · rintro ⟨p, hp, -⟩ hsize
    rw [h.places, List.length_eq_zero_iff.mp (r.length_selected.trans hsize)] at hp
    cases hp
  · intro hsize
    have hne : r.selected ≠ [] := by
      intro he
      apply hsize
      rw [← r.length_selected, he, List.length_nil]
    obtain ⟨index, rest, hselected⟩ := List.exists_cons_of_ne_nil hne
    have hmem : x.layout.placeAt index ∈ r.selected.map x.layout.placeAt :=
      List.mem_map_of_mem (hselected ▸ List.mem_cons_self)
    refine ⟨x.layout.placeAt index, h.places ▸ hmem, ?_⟩
    exact List.contains_iff_mem.mpr (Resolution.selected_subset_places hf hr hmem)

theorem within (h : x.Borrows r out) (hf : r.Fits) (hr : r.inputShape = x.shape)
    (hx : x.Within t) : out.Within t := by
  refine ⟨h.buffer ▸ hx.buffer, fun p hp => ?_⟩
  rw [h.places] at hp
  exact h.buffer ▸ hx.cells p (Resolution.selected_subset_places hf hr hp)

/-- Two positions have one cell exactly if the one is selected for the other. -/
theorem same_cell_iff (h : x.Borrows r out) (hf : r.Fits) (hr : r.inputShape = x.shape)
    (hd : x.places.Nodup) {i j : Nat} (hi : i < x.size) (hj : j < out.size) :
    x.places[i]? = out.places[j]? ↔ x.shape.indices[i]? = r.selected[j]? := by
  have hi : i < x.shape.indices.length := by
    rw [Shape.length_indices]
    exact hi
  have hj : j < r.selected.length := by
    rwa [← length_places, h.places, List.length_map] at hj
  have hx : x.places = x.shape.indices.map x.layout.placeAt := Layout.places_eq x.layout
  rw [h.places, hx, List.getElem?_map, List.getElem?_map, List.getElem?_eq_getElem hi,
    List.getElem?_eq_getElem hj, Option.map_some, Option.map_some, Option.some.injEq,
    Option.some.injEq]
  constructor
  · exact Layout.placeAt_injOn hd (List.getElem_mem hi)
      (Resolution.selected_mem_shape hf hr (List.getElem_mem hj))
  · exact congrArg _

/-- A write through one of the two is seen in the other at the position selected, and there only. -/
theorem put_seen (h : x.Borrows r out) (hf : r.Fits) (hr : r.inputShape = x.shape)
    (hd : x.places.Nodup) (hx : x.Within t) {i j : Nat} (hi : i < x.size) (hj : j < out.size)
    (code : Int) :
    ((x.codes (out.put j code t))[i]? =
      if x.shape.indices[i]? = r.selected[j]? then some code else (x.codes t)[i]?) ∧
    ((out.codes (x.put i code t))[j]? =
      if x.shape.indices[i]? = r.selected[j]? then some code else (out.codes t)[j]?) := by
  have hsame := h.same_cell_iff hf hr hd hi hj
  have hout := h.within hf hr hx
  rw [codes_put hx h.buffer hi hj, codes_put hout h.buffer.symm hj hi]
  simp only [hsame, eq_comm, and_self]

end Borrows

end View

namespace Config

variable {c : Config} {x out : View} {b : Backend} {r : Resolution} {route : Route} {spec : Value}
  {w w' : Workspace}

/-- The choices of a slice that returned; the log tells the route. -/
structure Sliced (c : Config) (x : View) (spec : Value) (b : Backend) (r : Resolution)
    (route : Route) (w w' : Workspace) : Prop where
  backend : Backend.choose c.backend c.device [.array x] = .ok b
  resolution : Resolution.ofValue x.shape spec = .ok r
  logged : ∃ entry, w'.log = w.log ++ [entry] ∧ entry.kind = .slice ∧
    entry.execution = some ⟨route, b, x.type.itemSize⟩

theorem slice_cells (h : c.slice (.array x) spec w = .ok out w') :
    ∃ b r route, c.Sliced x spec b r route w w' ∧ (r.Fits ∧ r.inputShape = x.shape) ∧
      (c.Borrowing route → x.Borrows r out) ∧
      (¬c.Borrowing route → View.Fresh w.store out) := by
  obtain ⟨b, source, s₁, r, route, hb, hsource, hr, hroute, hmade, hlog⟩ := slice_eq_ok h
  rw [Operand.toView, ofExcept_eq_ok] at hsource
  obtain ⟨hsource, rfl⟩ := hsource
  obtain ⟨writeable, _, rfl, _⟩ := View.ofKind_eq_ok hsource
  obtain ⟨hf, hfit⟩ := Resolution.ofValue_fits hr
  refine ⟨b, r, route, ⟨hb, hr, _, hlog, rfl, rfl⟩, ⟨hf, hfit⟩, fun hc => ?_,
    fun hc => extract_fresh hc hmade⟩
  -- Seen as an array of another kind, the source has the same cells.
  obtain ⟨hbuffer, hplaces⟩ := extract_borrows hc hf hfit (route_serves hroute) hmade
  exact ⟨hbuffer, hplaces⟩

end Config

namespace Session

/-- Slices, gradients and resolutions leave every cell as it was.  A gradient has cells of its own,
and so has a slice unless windows are allowed and it took everything or a run of memory; then its
elements are the elements selected, and a write to one is seen there and nowhere else. -/
theorem results_share (limit : Nat) (history : List Action)
    (hh : ∀ a ∈ history, a.Fit NewArray.Fills) :
    let w := (reached limit history).workspace
    (∀ name v, (name, Operand.array v) ∈ (reached limit history).named → v.Placed w.store) ∧
    (∀ name x c spec out w', (name, Operand.array x) ∈ (reached limit history).named →
      Config.slice c (.array x) spec w = .ok out w' →
      ∃ b r route, c.Sliced x spec b r route w w' ∧
        (c.zeroCopy = false → ∀ v : View, v.buffer < w.store.buffers.size → out.shares v = false) ∧
        (c.zeroCopy = true →
          (out.shares x = true ↔ (route = .identity ∨ route = .lead) ∧ r.size ≠ 0) ∧
          (out.shares x = true → out.buffer = x.buffer ∧
            out.places = r.processingShape.indices.map (fun k => x.layout.placeAt (r.indexAt k)) ∧
            -- Position `j` of the slice and position `i` of the array are one exactly if the
            -- index at `i` is the one selected for `j`.
            ∀ t, x.Within t → ∀ i < x.size, ∀ j < out.size, ∀ code,
              ((x.codes (out.put j code t))[i]? =
                if x.shape.indices[i]? = r.selected[j]? then some code else (x.codes t)[i]?) ∧
              ((out.codes (x.put i code t))[j]? =
                if x.shape.indices[i]? = r.selected[j]? then some code
                else (out.codes t)[j]?)))) ∧
    (∀ c o spec, Ends (Config.slice c o spec w) (fun _ w' => Extends w.store w'.store)
      fun w' => Extends w.store w'.store) ∧
    (∀ c shape spec, Ends (Config.resolve c shape spec w) (fun _ w' => Extends w.store w'.store)
      fun w' => Extends w.store w'.store) ∧
    ∀ c shape spec dy, Ends (Config.grad c shape spec dy w)
      (fun out w' => Extends w.store w'.store ∧
        ∀ v : View, v.buffer < w.store.buffers.size → out.shares v = false)
      fun w' => Extends w.store w'.store := by
  have hplaced := placed_invariant.reached_all limit hh
  generalize reached limit history = s at *
  refine ⟨fun name v hv => hplaced _ hv v rfl, ?_, ?_, ?_, ?_⟩
  · intro name x c spec out w' hx h
    have hx : x.Placed s.workspace.store := hplaced _ hx x rfl
    obtain ⟨b, r, route, hsliced, ⟨hf, hr⟩, hborrows, hfresh⟩ := Config.slice_cells h
    refine ⟨b, r, route, hsliced, fun hz v hv => ?_, fun hz => ?_⟩
    · have hown : ¬c.Borrowing route := by
        intro hc
        rw [hc.1] at hz
        cases hz
      exact (hfresh hown).not_shares hv
    · have hshares : out.shares x = true ↔ (route = .identity ∨ route = .lead) ∧ r.size ≠ 0 := by
        by_cases hc : c.Borrowing route
        · rw [(hborrows hc).shares_iff hf hr]
          exact ⟨fun hsize => ⟨hc.2, hsize⟩, fun h => h.2⟩
        · rw [(hfresh hc).not_shares hx.buffer]
          exact ⟨fun h => absurd h Bool.false_ne_true, fun h => absurd ⟨hz, h.1⟩ hc⟩
      refine ⟨hshares, fun hout => ?_⟩
      have hborrow := hborrows ⟨hz, (hshares.mp hout).1⟩
      refine ⟨hborrow.buffer, ?_, fun t ht i hi j hj code => ?_⟩
      · rw [hborrow.places, Resolution.selected, List.map_map]
        rfl
      · exact hborrow.put_seen hf hr hx.distinct ht hi hj code
  · intro c o spec
    exact (c.slice_ends s.workspace o spec).mono (fun _ _ h => h.2.kept) fun _ h => h.store
  · intro c shape spec
    exact (c.resolve_ends s.workspace shape spec).mono (fun _ _ h => h.2 ▸ Extends.refl _)
      fun _ h => h.store
  · intro c shape spec dy
    refine (c.grad_ends s.workspace shape spec dy).mono (fun out w' h => ?_) fun _ h => h.store
    refine ⟨h.2.kept, fun v hv => View.not_shares_of_buffer ?_⟩
    have hnew := h.2.new_le
    omega

end Session

namespace Sample

/-- A column-major array and the same cells with the last axis first. -/
def turned : List Session.Action := [
  .create "plane" (.fresh
    { kind := .host, type := .int64, layout := .columnMajor [1, 2, 3], codes := [0, 1, 2, 3, 4, 5] }),
  .transpose "turned" "plane" [2, 0, 1]]

def turnedView : View :=
  { kind := .host, type := .int64, buffer := 0, layout := ⟨0, [⟨3, 2⟩, ⟨1, 1⟩, ⟨2, 1⟩]⟩ }

/-- All of the first axis, the only index of the second, a new axis, and the rest. -/
def reshaping : Value :=
  .masks {
    begins := [0, 0, 0], ends := [0, 1, 0], strides := [1, 1, 1]
    beginMask := 1, endMask := 1, newAxisMask := 4, shrinkMask := 2 }

theorem results_share_turned :
    ∃ out w', Config.slice { zeroCopy := true } (.array turnedView) reshaping
        (Session.reached 1024 turned).workspace = .ok out w' ∧
      out.shape = [3, 1, 2] ∧ out.shares turnedView = true ∧
      ∀ t, turnedView.Within t → ∀ code,
        (turnedView.codes (out.put 3 code t))[3]? = some code ∧
        (turnedView.codes (out.put 3 code t))[2]? = (turnedView.codes t)[2]? := by
  have hfills : ∀ a ∈ turned, a.Fit Session.NewArray.Fills := by
    intro a ha
    simp only [turned, List.mem_cons, List.not_mem_nil, or_false] at ha
    rcases ha with rfl | rfl
    · exact Layout.columnMajor_fills [1, 2, 3]
    · trivial
  obtain ⟨out, w', h, hshape, hsize, hshares⟩ : ∃ out w',
      Config.slice { zeroCopy := true } (.array turnedView) reshaping
        (Session.reached 1024 turned).workspace = .ok out w' ∧
        out.shape = [3, 1, 2] ∧ out.size = 6 ∧ out.shares turnedView = true :=
    ⟨_, _, rfl, by decide, by decide, by decide⟩
  obtain ⟨r, hr, hthird, hsecond⟩ : ∃ r, Resolution.ofValue turnedView.shape reshaping = .ok r ∧
      turnedView.shape.indices[3]? = r.selected[3]? ∧
      turnedView.shape.indices[2]? ≠ r.selected[3]? :=
    ⟨_, rfl, by decide, by decide⟩
  obtain ⟨_, hslice, _⟩ := Session.results_share 1024 turned hfills
  obtain ⟨_, r', _, hsliced, _, hborrow⟩ :=
    hslice "turned" turnedView _ reshaping out w' List.mem_cons_self h
  obtain rfl : r = r' := Except.ok.inj (hr.symm.trans hsliced.resolution)
  obtain ⟨_, _, hput⟩ := (hborrow rfl).2 hshares
  refine ⟨out, w', h, hshape, hshares, fun t ht code => ⟨?_, ?_⟩⟩
  · rw [(hput t ht 3 (by decide) 3 (by omega) code).1, if_pos hthird]
  · rw [(hput t ht 2 (by decide) 3 (by omega) code).1, if_neg hsecond]

end Sample

end Hyperslab
