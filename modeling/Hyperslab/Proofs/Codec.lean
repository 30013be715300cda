import Hyperslab.MaskSpec.Loose
import Hyperslab.Proofs.Binding
import Mathlib.Data.Nat.Bits

/-!
# Entries written as masks

Entry `i` is written into bit `i` of each mask and into place `i` of each list, so what
decoding finds at a position depends on the entry there alone.  A specification that is
written decodes to its entries, and one that decodes can be written anew: the fields that
decoding does not look at are lost, and nothing else.
-/

namespace Hyperslab

/-- The form in which an entry is read back: the whole axis in steps of one has one spelling. -/
def Entry.tidy : Entry → Entry
  | range none none 1 => full
  | e => e

theorem Entry.tidy_range (start stop : Option Int) (step : Int) :
    (range start stop step).tidy = ofRange start stop step := by
  unfold tidy ofRange
  split
  · next h =>
    cases h
    rfl
  · next h =>
    refine (if_neg fun hfull => h ?_).symm
    simpa [and_assoc] using hfull

theorem Entry.tidy_ofRange (start stop : Option Int) (step : Int) :
    (ofRange start stop step).tidy = ofRange start stop step := by
  by_cases h : (start.isNone && stop.isNone && step == 1) = true
  · rw [ofRange, if_pos h]
    rfl
  · rw [ofRange, if_neg h, tidy_range, ofRange, if_neg h]

/-! ## Entries with loosely typed numbers -/

namespace LooseEntry

/-- A bound as it is given: nothing, or a whole number. -/
def ofBound : Option Int → Value
  | none => .null
  | some n => .whole n

def ofEntry : Entry → LooseEntry
  | .full => full
  | .fixed i => fixed (.whole i)
  | .range start stop step => range (ofBound start) (ofBound stop) (.whole step)
  | .newAxis => newAxis
  | .ellipsis => ellipsis

/-- A bound of zero counts as false, and what is written for it is zero. -/
theorem bound_ofBound (b : Option Int) : bound (ofBound b) = .ok (.whole (b.getD 0)) := by
  cases b with
  | none => rfl
  | some n =>
    by_cases hn : n = 0
    · subst hn
      rfl
    · have htruth : (Value.whole n).truth = .ok true := congrArg Except.ok (bne_iff_ne.mpr hn)
      unfold bound
      rw [ofBound, htruth]
      rfl

/-- Three numbers as values. -/
def wholes (n : Int × Int × Int) : Value × Value × Value := (.whole n.1, .whole n.2.1, .whole n.2.2)

theorem numbers_ofEntry (e : Entry) :
    numbers (ofEntry e) = .ok (wholes (MaskSpec.numbers e)) := by
  cases e with
  | range start stop step =>
    show (do return (← bound (ofBound start), ← bound (ofBound stop), Value.whole step)) = _
    rw [bound_ofBound, bound_ofBound]
    rfl
  | full | fixed i | newAxis | ellipsis => rfl

theorem isNull_ofBound (b : Option Int) : isNull (ofBound b) = b.isNone := by
  cases b <;> rfl

end LooseEntry

theorem Value.allWhole?_wholes (ns : List Int) :
    allWhole? (ns.map .whole) = .ok (some ns) := by
  induction ns with
  | nil => rfl
  | cons n ns ih =>
    show (do return (← allWhole? (ns.map .whole)).map (n :: ·)) = _
    rw [ih]
    rfl

theorem LooseMasks.wholes_tuple (field : SpecField) (ns : List Int) :
    wholes field (.tuple (ns.map .whole)) = .ok ns := by
  unfold wholes
  rw [show (Value.tuple (ns.map .whole)).wholes? = .ok (some ns) from Value.allWhole?_wholes ns]
  rfl

theorem LooseMasks.mask_whole (field : SpecField) (n : Nat) :
    mask field (.whole n) = .ok n := by
  show (if (n : Int) < 0 then Except.error (.negativeMask field n) else .ok (n : Int).toNat) = _
  rw [if_neg (Int.not_lt.mpr (Int.natCast_nonneg n)), Int.toNat_natCast]

/-- The fields of a specification as values. -/
def LooseMasks.ofSpec (m : MaskSpec) : LooseMasks where
  begins := .tuple (m.begins.map .whole)
  ends := .tuple (m.ends.map .whole)
  strides := .tuple (m.strides.map .whole)
  beginMask := .whole m.beginMask
  endMask := .whole m.endMask
  ellipsisMask := .whole m.ellipsisMask
  newAxisMask := .whole m.newAxisMask
  shrinkMask := .whole m.shrinkMask

theorem LooseMasks.build_ofSpec (m : MaskSpec) : (ofSpec m).build = .ok m := by
  unfold build ofSpec
  simp only [wholes_tuple, mask_whole]
  rfl

namespace MaskSpec

theorem maskOf_map {α β : Type} {f : α → β} {p : α → Bool} {q : β → Bool}
    (h : ∀ a, q (f a) = p a) (as : List α) : maskOf q (as.map f) = maskOf p as := by
  induction as with
  | nil => rfl
  | cons a as ih => rw [List.map_cons, maskOf, maskOf, ih, h]

/-- Entries with whole numbers are written without a fault. -/
theorem ofLooseEntries_ofEntry (es : List Entry) :
    ofLooseEntries (es.map .ofEntry) = .ok (ofEntries es) := by
  have hnumbers : (es.map .ofEntry).mapM LooseEntry.numbers =
      .ok ((es.map numbers).map LooseEntry.wholes) := by
    induction es with
    | nil => rfl
    | cons e es ih =>
      rw [List.map_cons, List.mapM_cons, LooseEntry.numbers_ofEntry, ih]
      rfl
  have hbegin : ∀ e, (LooseEntry.ofEntry e).opensAtBegin = opensAtBegin e := by
    intro e
    cases e with
    | range start stop step => exact LooseEntry.isNull_ofBound start
    | full | fixed i | newAxis | ellipsis => rfl
  have hend : ∀ e, (LooseEntry.ofEntry e).opensAtEnd = opensAtEnd e := by
    intro e
    cases e with
    | range start stop step => exact LooseEntry.isNull_ofBound stop
    | full | fixed i | newAxis | ellipsis => rfl
  have hellipsis : ∀ e, (LooseEntry.ofEntry e).isEllipsis = (e == .ellipsis) := by
    intro e
    cases e <;> rfl
  have hnewAxis : ∀ e, (LooseEntry.ofEntry e).isNewAxis = (e == .newAxis) := by
    intro e
    cases e <;> rfl
  have hfixed : ∀ e, (LooseEntry.ofEntry e).isFixed = isFixed e := by
    intro e
    cases e <;> rfl
  unfold ofLooseEntries
  rw [hnumbers, ← LooseMasks.build_ofSpec (ofEntries es), LooseMasks.ofSpec, ofEntries,
    ← maskOf_map hbegin, ← maskOf_map hend, ← maskOf_map hellipsis, ← maskOf_map hnewAxis,
    ← maskOf_map hfixed]
  show LooseMasks.build _ = _
  simp only [List.map_map]
  rfl

/-! ## What is read back -/

theorem testBit_maskOf {α : Type} (p : α → Bool) (as : List α) (i : Nat) :
    (maskOf p as).testBit i = as[i]?.any p := by
  have hbit : ∀ (a : α) (as : List α), maskOf p (a :: as) = Nat.bit (p a) (maskOf p as) := by
    intro a as
    rw [maskOf, Nat.bit_val]
    cases p a <;> rfl
  induction as generalizing i with
  | nil => exact Nat.zero_testBit i
  | cons a as ih =>
    rw [hbit]
    cases i with
    | zero => exact Nat.testBit_bit_zero (p a) _
    | succ i => rw [Nat.testBit_bit_succ, ih, List.getElem?_cons_succ]

variable {m : MaskSpec} {es : List Entry}

theorem dims_ofEntries (es : List Entry) : (ofEntries es).dims = es.length := List.length_map _

/-- What is decoded at a position is the entry written there. -/
theorem entryAt_ofEntries {i : Nat} {e : Entry} (h : es[i]? = some e) :
    (ofEntries es).entryAt i = e.tidy := by
  have hnumber : ∀ f : Entry → Int, (es.map f).getD i 0 = f e := by
    intro f
    rw [List.getD_eq_getElem?_getD, List.getElem?_map, h]
    rfl
  simp only [entryAt, decoded, ofEntries, hnumber, testBit_maskOf, h, Option.any_some]
  cases e with
  | range start stop step =>
    rw [Entry.tidy_range]
    cases start <;> cases stop <;> rfl
  | full | fixed i | newAxis | ellipsis => rfl

theorem map_entryAt_ofEntries (es : List Entry) :
    (List.range (ofEntries es).dims).map (ofEntries es).entryAt = es.map Entry.tidy := by
  rw [dims_ofEntries]
  refine List.ext_getElem (by simp) fun i hi hi' => ?_
  rw [List.getElem_map, List.getElem_map, List.getElem_range]
  exact entryAt_ofEntries (List.getElem?_eq_getElem _)

/-- Single indices are written with a stride of one. -/
theorem strides_ofEntries {i : Nat} (hi : i < (ofEntries es).dims)
    (hs : (ofEntries es).shrinkMask.testBit i = true) : (ofEntries es).strides.getD i 0 ≠ 0 := by
  rw [dims_ofEntries] at hi
  have he := List.getElem?_eq_getElem hi
  rw [ofEntries, testBit_maskOf, he, Option.any_some] at hs
  have hone : numbers es[i] = ((numbers es[i]).1, (numbers es[i]).2.1, 1) := by
    generalize es[i] = e at hs
    cases e with
    | fixed i => rfl
    | full | range _ _ _ | newAxis | ellipsis => cases hs
  rw [ofEntries, List.getD_eq_getElem?_getD, List.getElem?_map, he, Option.map_some,
    Option.getD_some, hone]
  exact Int.one_ne_zero

theorem oneEllipsis_ofEntries :
    (ofEntries es).OneEllipsis ↔ ∀ i j : Nat, es[i]? = some Entry.ellipsis →
      es[j]? = some Entry.ellipsis → i = j := by
  have hbit : ∀ i, (ofEntries es).ellipsisMask.testBit i = true ↔ es[i]? = some .ellipsis := by
    intro i
    rw [ofEntries, testBit_maskOf, Option.any_eq_true]
    exact ⟨fun ⟨e, he, h⟩ => by rw [he, eq_of_beq h], fun h => ⟨_, h, rfl⟩⟩
  simp only [OneEllipsis, hbit]

theorem oneEllipsis_iff_count : (ofEntries es).OneEllipsis ↔ es.count .ellipsis ≤ 1 := by
  rw [oneEllipsis_ofEntries, count_le_one_iff]

theorem lengths_ofEntries (es : List Entry) :
    (ofEntries es).begins.length = (ofEntries es).ends.length ∧
      (ofEntries es).ends.length = (ofEntries es).strides.length := by
  simp [ofEntries]

theorem entries_ofEntries (h : (ofEntries es).OneEllipsis) :
    (ofEntries es).entries = .ok (es.map Entry.tidy) :=
  entries_eq_ok.mpr ⟨⟨lengths_ofEntries es, h⟩, fun _ hi _ hs => strides_ofEntries hi hs,
    map_entryAt_ofEntries es⟩

theorem entries_severalEllipses (h : ¬(ofEntries es).OneEllipsis) :
    (ofEntries es).entries = .error (.severalEllipses (ofEntries es).ellipsisMask) := by
  have hvalidate : (ofEntries es).validate =
      .error (.severalEllipses (ofEntries es).ellipsisMask) := by
    rw [OneEllipsis, ← and_pred_eq_zero] at h
    rw [validate, if_pos (lengths_ofEntries es), if_neg h]
  rw [entries, hvalidate]
  rfl

theorem kind_severalEllipses (mask : Nat) :
    Fault.kind (.severalEllipses mask) = if Text.legible mask then .argument else .value := by
  rw [Fault.kind, Fault.isLegible]
  · rw [Fault.numbers, List.all_cons, List.all_nil, Bool.and_true]
    rfl
  all_goals simp

/-! ## Writing anew what was decoded -/

theorem tidy_entryAt (m : MaskSpec) (i : Nat) : (m.entryAt i).tidy = m.entryAt i := by
  unfold entryAt decoded
  split_ifs
  · rfl
  · rfl
  · rfl
  all_goals exact Entry.tidy_ofRange _ _ _

/-- A specification that decodes can be written from its entries. -/
theorem entries_rewritten (h : m.entries = .ok es) : (ofEntries es).entries = .ok es := by
  obtain ⟨⟨_, hone⟩, _, rfl⟩ := entries_eq_ok.mp h
  have hbit : ∀ i : Nat, ((List.range m.dims).map m.entryAt)[i]? = some Entry.ellipsis →
      m.ellipsisMask.testBit i = true := by
    intro i hi
    obtain ⟨hlt, hi⟩ := List.getElem?_eq_some_iff.mp hi
    rw [List.getElem_map, List.getElem_range, entryAt_eq_ellipsis] at hi
    exact hi
  have hone' := oneEllipsis_ofEntries.mpr fun i j hi hj => hone i j (hbit i hi) (hbit j hj)
  rw [entries_ofEntries hone', List.map_map]
  exact congrArg Except.ok (List.map_congr_left fun i _ => m.tidy_entryAt i)

/-- Entries are read back as they were written, unless two of them are ellipses, and a specification
that decodes resolves like the one that is written from its entries.  Two ellipses are refused as an
argument, and their mask is told if it can be written. -/
theorem masks_faithful :
    (∀ es : List Entry, ofLooseEntries (es.map .ofEntry) = .ok (ofEntries es) ∧
      (es.count .ellipsis ≤ 1 → (ofEntries es).entries = .ok (es.map Entry.tidy)) ∧
      (2 ≤ es.count .ellipsis → ∃ e, (ofEntries es).entries = .error e ∧
        e = .severalEllipses (ofEntries es).ellipsisMask ∧
        e.kind = if Text.legible (ofEntries es).ellipsisMask then .argument else .value)) ∧
    ∀ (m : MaskSpec) (es : List Entry), m.entries = .ok es →
      (ofEntries es).entries = .ok es ∧
        ∀ shape, (ofEntries es).resolve shape = m.resolve shape := by
  refine ⟨fun es => ⟨ofLooseEntries_ofEntry es, fun h => ?_, fun h => ?_⟩, fun m es h => ?_⟩
  · exact entries_ofEntries (oneEllipsis_iff_count.mpr h)
  · refine ⟨_, entries_severalEllipses fun hone => ?_, rfl, kind_severalEllipses _⟩
    exact Nat.not_lt.mpr (oneEllipsis_iff_count.mp hone) h
  · refine ⟨entries_rewritten h, fun shape => ?_⟩
    rw [resolve, resolve, entries_rewritten h, h]

/-- A whole axis that is written as a range, a bound of zero beside a missing one, two ellipses, and
a specification with numbers and bits that nothing looks at. -/
theorem masks_faithful_corners :
    (ofEntries [.range none none 1, .ellipsis, .fixed (-1), .range (some 0) none (-2)]).entries =
      .ok [.full, .ellipsis, .fixed (-1), .range (some 0) none (-2)] ∧
    (∃ e, (ofEntries [.ellipsis, .newAxis, .ellipsis]).entries = .error e ∧
      e = .severalEllipses 5 ∧ e.kind = .argument) ∧
    ∃ es, MaskSpec.entries { begins := [7, 2, 3], ends := [8, 9, 5], strides := [0, -4, 1]
                             beginMask := 7, endMask := 14, ellipsisMask := 1, newAxisMask := 1
                             shrinkMask := 19 } = .ok es ∧
      (ofEntries es).entries = .ok es ∧
      ∀ shape, (ofEntries es).resolve shape =
        MaskSpec.resolve { begins := [7, 2, 3], ends := [8, 9, 5], strides := [0, -4, 1]
                           beginMask := 7, endMask := 14, ellipsisMask := 1, newAxisMask := 1
                           shrinkMask := 19 } shape := by
  refine ⟨(masks_faithful.1 _).2.1 (by decide), (masks_faithful.1 _).2.2 (by decide), _, rfl, ?_⟩
  exact masks_faithful.2 _ _ rfl

/-- Two ellipses with a number of new axes between them. -/
def farEllipses (n : Nat) : List Entry := .ellipsis :: (List.replicate n .newAxis ++ [.ellipsis])

theorem two_le_count_farEllipses (n : Nat) : 2 ≤ (farEllipses n).count .ellipsis := by
  simp [farEllipses, List.count_append, List.count_replicate]

theorem two_pow_le_farEllipses (n : Nat) :
    2 ^ (n + 1) ≤ (ofEntries (farEllipses n)).ellipsisMask := by
  have hlast : (farEllipses n)[n + 1]? = some .ellipsis := by simp [farEllipses]
  refine Nat.ge_two_pow_of_testBit ?_
  rw [ofEntries, testBit_maskOf, hlast]
  rfl

/-- Two ellipses so far apart that their mask cannot be written: they are refused, but not as an
argument. -/
theorem masks_faithful_untold : 2 ≤ (farEllipses 14284).count .ellipsis ∧
    ∃ e, (ofEntries (farEllipses 14284)).entries = .error e ∧ e.kind = .value := by
  have hcount := two_le_count_farEllipses 14284
  have hlong : ¬Text.legible (ofEntries (farEllipses 14284)).ellipsisMask = true := by
    rw [Text.legible_iff, Int.natAbs_natCast, Nat.not_lt]
    exact Nat.le_trans (by decide +kernel) (two_pow_le_farEllipses 14284)
  refine ⟨hcount, _, entries_severalEllipses fun hone => ?_, ?_⟩
  · exact Nat.not_lt.mpr (oneEllipsis_iff_count.mp hone) hcount
  · rw [kind_severalEllipses, if_neg hlong]

end MaskSpec

end Hyperslab
