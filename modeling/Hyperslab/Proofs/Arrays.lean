import Hyperslab.Proofs.Cells
import Hyperslab.Proofs.Dense
import Hyperslab.Proofs.Reshape
import Hyperslab.Proofs.Run

/-!
# Arrays in memory

`Shows` states what an array is to a caller: an element type, a shape, and the
codes of its elements in row-major order, all of them in cells of its buffer.
Each operation that makes an array is given by what its result shows.
-/

namespace Hyperslab

open Store (Extends Updates HasCell)

namespace View

/-- Every element has a cell. -/
structure Within (v : View) (s : Store) : Prop where
  buffer : v.buffer < s.buffers.size
  cells : ∀ p ∈ v.places, s.HasCell v.buffer p

instance (v : View) (s : Store) : Decidable (v.Within s) :=
  decidable_of_iff (v.buffer < s.buffers.size ∧ ∀ p ∈ v.places, s.HasCell v.buffer p)
    ⟨fun h => ⟨h.1, h.2⟩, fun h => ⟨h.buffer, h.cells⟩⟩

/-- The code of the element at an index. -/
def elementAt (v : View) (s : Store) (index : List Int) : Int :=
  s.read v.buffer (v.layout.placeAt index)

structure Shows (v : View) (s : Store) (type : ElementType) (shape : Shape) (codes : List Int) :
    Prop where
  within : v.Within s
  type_eq : v.type = type
  shape_eq : v.shape = shape
  codes_eq : v.codes s = codes

theorem codes_eq_map (v : View) (s : Store) :
    v.codes s = v.shape.indices.map (v.elementAt s) := by
  show (v.layout.places).map _ = _
  rw [Layout.places_eq, List.map_map]
  rfl

theorem length_codes (v : View) (s : Store) : (v.codes s).length = v.shape.size := by
  rw [codes_eq_map, List.length_map, Shape.length_indices]

theorem codes_extends {v : View} {s s' : Store} (hv : v.Within s) (h : Extends s s') :
    v.codes s' = v.codes s := h.gather hv.buffer v.places

theorem Within.extends {v : View} {s s' : Store} (hv : v.Within s) (h : Extends s s') :
    v.Within s' :=
  ⟨Nat.lt_of_lt_of_le hv.buffer h.count, fun p hp => h.hasCell (hv.cells p hp)⟩

theorem Within.updates {v : View} {s s' : Store} {buffer : Nat} {places codes : List Int}
    (hv : v.Within s) (h : Updates s s' buffer places codes) : v.Within s' :=
  ⟨Nat.lt_of_lt_of_le hv.buffer h.count, fun p hp => h.hasCell (hv.cells p hp)⟩

theorem Shows.size_eq {v : View} {s : Store} {type : ElementType} {shape : Shape}
    {codes : List Int} (h : v.Shows s type shape codes) : v.size = shape.size :=
  congrArg Shape.size h.shape_eq

/-- What an array shows does not depend on its kind, on whether it is writeable, or on tracking. -/
theorem Shows.of_fields {v w : View} {s : Store} {type : ElementType} {shape : Shape}
    {codes : List Int} (h : v.Shows s type shape codes) (ht : w.type = v.type)
    (hb : w.buffer = v.buffer) (hl : w.layout = v.layout) : w.Shows s type shape codes := by
  obtain ⟨kind, type, buffer, layout, writeable, tracking, start⟩ := w
  obtain rfl : type = v.type := ht
  obtain rfl : buffer = v.buffer := hb
  obtain rfl : layout = v.layout := hl
  exact ⟨⟨h.within.buffer, h.within.cells⟩, h.type_eq, h.shape_eq, h.codes_eq⟩

/-! ## New arrays -/

theorem create_eq (kind : ArrayKind) (type : ElementType) (l : Layout) (codes : List Int)
    (s : Store) :
    create kind type l codes s =
      .ok { kind, type, buffer := s.buffers.size, layout := l }
        ((s.grow l.size).scatter s.buffers.size l.places codes) := rfl

theorem create_shows {kind : ArrayKind} {type : ElementType} {l : Layout} {codes : List Int}
    {s s' : Store} {out : View} (h : create kind type l codes s = .ok out s') (hl : l.Fills)
    (hlen : codes.length = l.size) : Extends s s' ∧ out.Shows s' type l.shape codes := by
  rw [create_eq] at h
  cases h
  have hcells : ∀ p ∈ l.places, (s.grow l.size).HasCell s.buffers.size p := by
    intro p hp
    obtain ⟨h0, hlt⟩ := hl.mem_places_iff.mp hp
    exact Store.hasCell_grow s l.size h0 hlt
  have hwrite := Store.scatter_updates hl.nodup hcells (hlen.trans (Layout.length_places l).symm)
  have hext := ((Store.extends_grow s l.size).updates hwrite).extends (Nat.le_refl _)
  refine ⟨hext, ⟨?_, fun p hp => hwrite.hasCell (hcells p hp)⟩, rfl, rfl, hwrite.written⟩
  refine Nat.lt_of_lt_of_le ?_ hwrite.count
  rw [Store.grow, Array.size_push]
  exact Nat.lt_succ_self _

theorem checkMemory_eq_ok {kind : ArrayKind} {type : ElementType} {shape : Shape} {limit : Nat}
    {u : Unit} : checkMemory kind type shape limit = .ok u ↔ bytes kind type shape ≤ limit := by
  unfold checkMemory
  by_cases h : bytes kind type shape ≤ limit
  · rw [if_pos h]
    exact ⟨fun _ => h, fun _ => rfl⟩
  · rw [if_neg h]
    exact ⟨fun he => (nomatch he), fun hle => absurd hle h⟩

/-- Where there is memory, an array is made. -/
theorem make_eq_ok {kind : ArrayKind} {type : ElementType} {l : Layout} {codes : List Int}
    {s s' : Store} {out : View} : make kind type l codes s = .ok out s' ↔
      bytes kind type l.shape ≤ s.limit ∧ create kind type l codes s = .ok out s' := by
  simp only [make, bind_eq_ok, get_eq_ok, ofExcept_eq_ok, checkMemory_eq_ok]
  constructor
  · rintro ⟨_, _, ⟨rfl, rfl⟩, _, _, ⟨hmemory, rfl⟩, h⟩
    exact ⟨hmemory, h⟩
  · rintro ⟨hmemory, h⟩
    exact ⟨s, s, ⟨rfl, rfl⟩, (), s, ⟨hmemory, rfl⟩, h⟩

theorem length_gather (s : Store) (buffer : Nat) (places : List Int) :
    (s.gather buffer places).length = places.length := List.length_map _

theorem copy_eq_ok {v out : View} {s s' : Store} (h : v.copy s = .ok out s') :
    ∃ w, create v.kind v.type v.layout.dense (v.codes s) s = .ok w s' ∧
      out = { w with tracking := v.tracking.copy } := by
  simp only [copy, bind_eq_ok, get_eq_ok, pure_eq_ok] at h
  obtain ⟨_, _, ⟨rfl, rfl⟩, w, _, hw, rfl, rfl⟩ := h
  exact ⟨w, (make_eq_ok.mp hw).2, rfl⟩

theorem copy_shows {v out : View} {s s' : Store} (h : v.copy s = .ok out s') :
    Extends s s' ∧ out.Shows s' v.type v.shape (v.codes s) := by
  obtain ⟨w, hw, rfl⟩ := copy_eq_ok h
  have hlen : (v.codes s).length = v.layout.dense.size := by
    rw [length_codes, Layout.size, Layout.shape_dense]
    rfl
  obtain ⟨hext, hshow⟩ := create_shows hw (Layout.dense_fills v.layout) hlen
  rw [Layout.shape_dense] at hshow
  exact ⟨hext, hshow.of_fields rfl rfl rfl⟩

theorem settle_shows {v out : View} {zeroCopy : Bool} {s s' : Store} {type : ElementType}
    {shape : Shape} {codes : List Int} (hv : v.Shows s type shape codes)
    (h : v.settle zeroCopy s = .ok out s') : Extends s s' ∧ out.Shows s' type shape codes := by
  cases zeroCopy with
  | true =>
    rw [settle, if_pos rfl, pure_eq_ok] at h
    obtain ⟨rfl, rfl⟩ := h
    exact ⟨Extends.refl s, hv⟩
  | false =>
    rw [settle, if_neg Bool.false_ne_true] at h
    obtain ⟨hext, hshow⟩ := copy_shows h
    rw [hv.type_eq, hv.shape_eq, hv.codes_eq] at hshow
    exact ⟨hext, hshow⟩

/-- A new array of zeros takes a new buffer. -/
theorem zeros_spec {kind : ArrayKind} {type : ElementType} {shape : Shape} {s s' : Store}
    {out : View} (h : zeros kind type shape s = .ok out s') :
    out = { kind, type, buffer := s.buffers.size, layout := .rowMajor shape } ∧ Extends s s' ∧
      out.Shows s' type shape (List.replicate shape.size 0) := by
  simp only [zeros, bind_eq_ok, ofExcept_eq_ok] at h
  obtain ⟨_, _, ⟨_, rfl⟩, hmake⟩ := h
  obtain ⟨_, h⟩ := make_eq_ok.mp hmake
  have hlen : (List.replicate shape.size (0 : Int)).length = (Layout.rowMajor shape).size := by
    rw [List.length_replicate, Layout.size, Layout.shape_rowMajor]
  obtain ⟨hext, hshow⟩ := create_shows h (Layout.rowMajor_fills shape) hlen
  rw [Layout.shape_rowMajor] at hshow
  rw [create_eq] at h
  cases h
  exact ⟨rfl, hext, hshow⟩

/-! ## Another type -/

theorem convert_self (type : ElementType) (codes : List Int) :
    codes.map (type.convert type) = codes := by
  conv_rhs => rw [← List.map_id codes]
  exact List.map_congr_left fun code _ => if_pos rfl

theorem ofType_eq_ok {v out : View} {type : ElementType} {s s' : Store}
    (h : v.ofType type s = .ok out s') :
    (v.type = type ∧ out = v ∧ s' = s) ∨
      ∃ w, create v.kind type (.rowMajor v.shape) ((v.codes s).map (v.type.convert type)) s =
          .ok w s' ∧ out = { w with tracking := v.tracking.copy } := by
  unfold ofType at h
  split_ifs at h with ht
  · obtain ⟨rfl, rfl⟩ := pure_eq_ok.mp h
    exact .inl ⟨ht, rfl, rfl⟩
  · simp only [bind_eq_ok, get_eq_ok, pure_eq_ok] at h
    obtain ⟨_, _, ⟨rfl, rfl⟩, w, _, hw, rfl, rfl⟩ := h
    exact .inr ⟨w, (make_eq_ok.mp hw).2, rfl⟩

/-- The elements of an array in another type. -/
theorem ofType_shows {v out : View} {type : ElementType} {s s' : Store} (hv : v.Within s)
    (h : v.ofType type s = .ok out s') : out.kind = v.kind ∧ Extends s s' ∧
      out.Shows s' type v.shape ((v.codes s).map (v.type.convert type)) := by
  rcases ofType_eq_ok h with ⟨rfl, rfl, rfl⟩ | ⟨w, hw, rfl⟩
  · rw [convert_self]
    exact ⟨rfl, Extends.refl _, hv, rfl, rfl, rfl⟩
  · have hlen : ((v.codes s).map (v.type.convert type)).length =
        (Layout.rowMajor v.shape).size := by
      rw [List.length_map, length_codes, Layout.size, Layout.shape_rowMajor]
    obtain ⟨hext, hshow⟩ := create_shows hw (Layout.rowMajor_fills v.shape) hlen
    rw [Layout.shape_rowMajor] at hshow
    rw [create_eq] at hw
    cases hw
    exact ⟨rfl, hext, hshow.of_fields rfl rfl rfl⟩

/-! ## Another shape -/

theorem withLayout_shows {v : View} {l : Layout} {s : Store} {shape : Shape} (hv : v.Within s)
    (hshape : l.shape = shape) (hplaces : l.places = v.places) :
    (v.withLayout l).Shows s v.type shape (v.codes s) := by
  refine ⟨⟨hv.buffer, fun p hp => hv.cells p ?_⟩, rfl, hshape, ?_⟩
  · rw [← hplaces]
    exact hp
  · show s.gather v.buffer l.places = _
    rw [hplaces]
    rfl

theorem size_of_reshape {v out : View} {shape : Shape} {s s' : Store}
    (h : v.reshape shape s = .ok out s') : shape.size = v.size := by
  simp only [reshape, guard_eq_ok] at h
  exact Decidable.of_not_not h.2.1

/-- A reshaped array has the cells that it had, in the same order, or is a new one. -/
theorem reshape_eq_ok {v out : View} {shape : Shape} {s s' : Store}
    (h : v.reshape shape s = .ok out s') :
    (s' = s ∧ ∃ l, out = v.withLayout l ∧ l.shape = shape ∧ l.places = v.places) ∨
      (v.layout.reshape? shape = none ∧
        ∃ w, create v.kind v.type (.rowMajor shape) (v.codes s) s = .ok w s' ∧
          out = { w with tracking := v.tracking.copy }) := by
  have hsize := size_of_reshape h
  simp only [reshape, guard_eq_ok] at h
  obtain ⟨_, _, h⟩ := h
  cases hr : v.layout.reshape? shape with
  | some l =>
    rw [hr] at h
    obtain ⟨rfl, rfl⟩ := pure_eq_ok.mp h
    obtain ⟨hshape, hplaces⟩ := Layout.reshape?_spec hr hsize
    exact .inl ⟨rfl, l, rfl, hshape, hplaces⟩
  | none =>
    rw [hr] at h
    simp only [bind_eq_ok, get_eq_ok, pure_eq_ok] at h
    obtain ⟨_, _, ⟨rfl, rfl⟩, w, _, hw, rfl, rfl⟩ := h
    exact .inr ⟨rfl, w, (make_eq_ok.mp hw).2, rfl⟩

theorem reshape_shows {v out : View} {shape : Shape} {s s' : Store} (hv : v.Within s)
    (h : v.reshape shape s = .ok out s') :
    Extends s s' ∧ out.Shows s' v.type shape (v.codes s) := by
  have hsize := size_of_reshape h
  rcases reshape_eq_ok h with ⟨rfl, l, rfl, hshape, hplaces⟩ | ⟨_, w, hw, rfl⟩
  · exact ⟨Extends.refl s', withLayout_shows hv hshape hplaces⟩
  · have hlen : (v.codes s).length = (Layout.rowMajor shape).size := by
      rw [length_codes, Layout.size, Layout.shape_rowMajor, hsize]
      rfl
    obtain ⟨hext, hshow⟩ := create_shows hw (Layout.rowMajor_fills shape) hlen
    rw [Layout.shape_rowMajor] at hshow
    exact ⟨hext, hshow.of_fields rfl rfl rfl⟩

/-- A layout that can take the shape is reshaped in place. -/
theorem reshape_in_place {v out : View} {shape : Shape} {s s' : Store}
    (hv : (v.layout.reshape? shape).isSome) (h : v.reshape shape s = .ok out s') :
    s' = s ∧ ∃ l, out = v.withLayout l ∧ l.shape = shape ∧ l.places = v.places := by
  rcases reshape_eq_ok h with hsame | ⟨hnone, _⟩
  · exact hsame
  · rw [hnone] at hv
    cases hv

/-- An array without gaps is reshaped in place. -/
theorem reshape_contiguous {v out : View} {shape : Shape} {s s' : Store}
    (hv : v.layout.isContiguous = true) (h : v.reshape shape s = .ok out s') :
    s' = s ∧ ∃ l, out = v.withLayout l ∧ l.shape = shape ∧ l.places = v.places :=
  reshape_in_place (Layout.reshape?_of_contiguous hv (size_of_reshape h)) h

end View

end Hyperslab
