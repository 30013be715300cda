import Hyperslab.Proofs.Writes

/-!
# Gradients

A gradient is a write to an array of zeros.  The indices selected are distinct, so no
two elements meet in one cell and the plain write is the sum that a gradient asks for.
-/

namespace Hyperslab

open Store (Extends Updates)

theorem Backend.kind_of_choose {choice : BackendChoice} {device : String} {b : Backend} {v : View}
    (h : choose choice device [.array v] = .ok b) :
    b.kind = match choice with
      | .auto => v.kind
      | .fixed kind => kind := by
  have hsample : [Operand.array v].any Operand.isTensor = (v.kind == .tensor) := Bool.or_false _
  have hhost : ∀ tensors : Bool, (if tensors = true then .error .tensorOnHost
      else if (device = "auto" || device = "cpu") = true then .ok host
      else .error (.deviceOnHost device) : Except Fault Backend) = .ok b → b.kind = .host := by
    intro tensors h
    split_ifs at h
    cases h
    rfl
  have htensor : (do return tensor (← Device.ofText device) : Except Fault Backend) = .ok b →
      b.kind = .tensor := by
    intro h
    simp only [except_bind_eq_ok, except_pure_eq_ok] at h
    obtain ⟨_, _, rfl⟩ := h
    rfl
  unfold choose at h
  rw [hsample] at h
  cases choice with
  | auto =>
    cases hk : v.kind with
    | host =>
      rw [hk] at h
      exact hhost _ h
    | tensor =>
      rw [hk] at h
      exact htensor h
  | fixed kind =>
    cases kind with
    | host => exact hhost _ h
    | tensor => exact htensor h

/-- A call on the result of a call has the same back end. -/
theorem Backend.choose_again {choice : BackendChoice} {device : String} {b : Backend} {v w : View}
    (h : choose choice device [.array v] = .ok b) (hw : w.kind = b.kind) :
    choose choice device [.array w] = .ok b := by
  have hkind := kind_of_choose h
  have hsample : ∀ u : View, [Operand.array u].any Operand.isTensor = (u.kind == .tensor) :=
    fun u => Bool.or_false _
  unfold choose at h ⊢
  rw [hsample] at h ⊢
  rw [hw, hkind]
  cases choice with
  | auto => exact h
  | fixed kind =>
    cases kind with
    | tensor => exact h
    | host =>
      dsimp only at h ⊢
      split_ifs at h with htensor hdevice
      rw [if_neg (by decide), if_pos hdevice]
      exact h

theorem View.zeros_elementAt {v : View} {s : Store} {type : ElementType} {shape : Shape}
    (h : v.Shows s type shape (List.replicate shape.size 0)) {index : List Int}
    (hi : index ∈ shape.indices) : v.elementAt s index = 0 := by
  have hcodes := h.codes_eq
  rw [codes_eq_map, h.shape_eq] at hcodes
  exact List.eq_of_mem_replicate (hcodes ▸ List.mem_map_of_mem hi)

namespace Config

variable {c : Config} {shape : Operand} {dy out : View} {spec : Value} {w w' : Workspace}

/-- The stages of a gradient: a new array of zeros, and a write to it. -/
theorem grad_stages {o : Operand} (h : c.grad shape spec o w = .ok out w') :
    ∃ input b seen s₁ r s x, shape.shape w.store = .ok input ∧
      Backend.choose c.backend c.device [o] = .ok b ∧ o.toView b.kind w.store = .ok seen s₁ ∧
      Resolution.ofValue input spec = .ok r ∧ seen.shape = r.finalShape ∧
      View.zeros b.kind seen.type input s₁ = .ok out s ∧
      c.write out r .gradient seen s = .ok x w'.store ∧
      w'.log = w.log ++ [c.entry .grad r (some ⟨writeRoute r, b, seen.type.itemSize⟩)] := by
  simp only [grad, bind_eq_ok, get_eq_ok, ofExcept_eq_ok, onStore_eq_ok, guard_eq_ok] at h
  obtain ⟨_, _, ⟨rfl, rfl⟩, input, _, ⟨hinput, rfl⟩, b, _, ⟨hb, rfl⟩, seen, _,
    ⟨s₁, hseen, rfl⟩, r, _, ⟨hr, rfl⟩, hshape, h⟩ := h
  have hshape := Decidable.of_not_not hshape
  have hrun : ∃ s x, View.zeros b.kind seen.type input s₁ = .ok out s ∧
      c.write out r .gradient seen s = .ok x w'.store ∧
      w'.log = w.log ++ [c.entry .grad r (some ⟨writeRoute r, b, seen.type.itemSize⟩)] := by
    split_ifs at h
    · simp only [bind_eq_ok, ofExcept_eq_ok, onStore_eq_ok, record_eq_ok, pure_eq_ok] at h
      obtain ⟨_, _, ⟨_, rfl⟩, _, _, ⟨s, hzeros, rfl⟩, x, _, ⟨_, hwrite, rfl⟩, _, _, rfl, rfl,
        rfl⟩ := h
      exact ⟨s, x, hzeros, hwrite, rfl⟩
    · simp only [bind_eq_ok, onStore_eq_ok, record_eq_ok, pure_eq_ok] at h
      obtain ⟨_, _, ⟨s, hzeros, rfl⟩, x, _, ⟨_, hwrite, rfl⟩, _, _, rfl, rfl, rfl⟩ := h
      exact ⟨s, x, hzeros, hwrite, rfl⟩
  obtain ⟨s, x, hzeros, hwrite, hlog⟩ := hrun
  exact ⟨input, b, seen, s₁, r, s, x, hinput, hb, hseen, hr, hshape, hzeros, hwrite, hlog⟩

/-- A gradient is a write to a new array of zeros. -/
theorem grad_eq_ok (hdy : dy.Within w.store) (h : c.grad shape spec (.array dy) w = .ok out w') :
    ∃ input b r values s, shape.shape w.store = .ok input ∧
      Backend.choose c.backend c.device [.array dy] = .ok b ∧ out.kind = b.kind ∧
      Resolution.ofValue input spec = .ok r ∧ dy.shape = r.finalShape ∧
      Extends w.store s ∧ out.Shows s dy.type input (List.replicate input.size 0) ∧
      values.codes s = dy.codes s ∧ c.Writes out r values s w'.store := by
  obtain ⟨input, b, seen, s₁, r, s, x, hinput, hb, hseen, hr, hshape, hzeros, hwrite, _⟩ :=
    grad_stages h
  rw [Operand.toView, ofExcept_eq_ok] at hseen
  obtain ⟨hseen, rfl⟩ := hseen
  obtain ⟨writeable, start, rfl, _⟩ := View.ofKind_eq_ok hseen
  obtain ⟨rfl, hext, hshow⟩ := View.zeros_spec hzeros
  obtain ⟨hfits, hfit⟩ := Resolution.ofValue_fits hr
  have hnew : w.store.buffers.size ≠ dy.buffer := (Nat.ne_of_lt hdy.buffer).symm
  exact ⟨input, b, r, { dy with kind := b.kind, writeable, start }, s, hinput, hb, rfl, hr, hshape,
    hext, hshow, rfl, hfits, hfit.trans hshow.shape_eq.symm, hshow.within,
    (Layout.rowMajor_fills input).nodup, (hdy.extends hext).ofKind b.kind writeable start, rfl,
    hshape, .inr (.inl (View.not_shares_of_buffer hnew.symm)), .gradient, x, by decide, hwrite⟩

/-- A gradient has `dy` at the indices selected and zeros elsewhere. -/
theorem grad_scatters (hdy : dy.Within w.store) (h : c.grad shape spec (.array dy) w = .ok out w') :
    ∃ input r, shape.shape w.store = .ok input ∧ Resolution.ofValue input spec = .ok r ∧
      dy.shape = r.finalShape ∧ out.type = dy.type ∧ out.shape = input ∧ out.Within w'.store ∧
      -- The elements selected are those of `dy`, in row-major order, and the others are zero.
      (r.processingShape.indices.map fun k => out.elementAt w'.store (r.indexAt k)) =
        dy.codes w.store ∧
      (∀ index ∈ input.indices, (∀ k ∈ r.processingShape.indices, index ≠ r.indexAt k) →
        out.elementAt w'.store index = 0) ∧
      -- A slice gives `dy` back.
      (∀ c' out' w'', Config.slice c' (.array out) spec w' = .ok out' w'' →
        out'.type = dy.type ∧ out'.shape = dy.shape ∧ out'.codes w''.store = dy.codes w.store) ∧
      (w'.store.Affords out.kind dy.type dy.shape →
        ∃ out' w'', c.slice (.array out) spec w' = .ok out' w'') ∧
      -- If `dy` is a slice of an array of the shape, its elements return to their places.
      ∀ c' x w₀, x.Within w₀.store → x.shape = input →
        Config.slice c' (.array x) spec w₀ = .ok dy w →
        ∀ k ∈ r.processingShape.indices,
          out.elementAt w'.store (r.indexAt k) = x.elementAt w₀.store (r.indexAt k) := by
  obtain ⟨input, b, r, values, s, hinput, hb, hkind, hr, hshape, hext, hshow, hvalues, hwrites⟩ :=
    grad_eq_ok hdy h
  have hupd := hwrites.updates
  have hcodes : r.selected.map (out.elementAt w'.store) = dy.codes s :=
    hwrites.elements.1.trans hvalues
  have hwritten := hcodes.trans (View.codes_extends hdy hext)
  have htype := hshow.type_eq
  have hout := hshow.shape_eq
  refine ⟨input, r, hinput, hr, hshape, htype, hout, hshow.within.updates hupd, ?_,
    fun index hi hn => ?_, ?_, fun hcheck => ?_, ?_⟩
  · rw [← hwritten, Resolution.selected, List.map_map]
    rfl
  · rw [hwrites.elements.2 index (hout.symm ▸ hi), View.zeros_elementAt hshow hi]
    intro hm
    obtain ⟨k, hk, rfl⟩ := List.mem_map.mp hm
    exact hn k hk rfl
  · intro c' out' w'' hslice
    obtain ⟨r', hr', _, hshow'⟩ := slice_shows (hshow.within.updates hupd) hslice
    rw [hout] at hr'
    obtain rfl : r = r' := Except.ok.inj (hr.symm.trans hr')
    rw [hwritten] at hshow'
    exact ⟨hshow'.type_eq.trans htype, hshow'.shape_eq.trans hshape.symm, hshow'.codes_eq⟩
  · exact hwrites.slice_returns (Backend.choose_again hb hkind) hkind (hout.symm ▸ hr)
      (htype.symm ▸ hwrites.shape.symm ▸ hshape ▸ hcheck)
  · intro c' x w₀ hx hxshape hslice k hk
    obtain ⟨r', hr', _, hshow⟩ := slice_shows hx hslice
    rw [hxshape] at hr'
    obtain rfl : r = r' := Except.ok.inj (hr.symm.trans hr')
    rw [hshow.codes_eq] at hwritten
    exact List.map_inj_left.mp hwritten _ (List.mem_map_of_mem hk)

end Config

namespace Sample

theorem grad_scatters_pair : pair.Within cells.store ∧
    ∃ out w', ({} : Config).grad (.value (.list [.whole 2, .whole 3])) spec (.array pair) cells =
        .ok out w' ∧
      ∃ input r, Resolution.ofValue input spec = .ok r ∧ out.shape = input ∧
        (r.processingShape.indices.map fun k => out.elementAt w'.store (r.indexAt k)) =
          pair.codes cells.store := by
  obtain ⟨out, w', h⟩ := returns_of_succeeds
    (show succeeds (({} : Config).grad (.value (.list [.whole 2, .whole 3])) spec (.array pair)
      cells) = true by decide)
  have hpair : pair.Within cells.store := by decide
  obtain ⟨input, r, _, hr, _, _, hshape, _, hwritten, _⟩ := Config.grad_scatters hpair h
  exact ⟨hpair, out, w', h, input, r, hr, hshape, hwritten⟩

end Sample

end Hyperslab
