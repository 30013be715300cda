import Hyperslab.Proofs.Run
import Mathlib.Data.List.Basic

/-!
# The ellipsis expanded

The pass that builds a dense specification counts what the entries behind an ellipsis
leave over.  It ends as if the ellipsis had been replaced by that many whole axes
before, and each entry that takes an axis had then taken the next one: `Dense.bound`
is what such entries come to, and `ofEntries_eq` says that the pass comes to it.
-/

namespace Hyperslab

namespace Entry

/-! ## Axes that entries take -/

/-- The number of axes that entries take. -/
def taken (es : List Entry) : Nat := es.countP takesAxis

/-- The entries that take an axis. -/
def takers (es : List Entry) : List Entry := es.filter takesAxis

theorem taken_eq (es : List Entry) : taken es = (takers es).length := List.countP_eq_length_filter

theorem taken_cons {e : Entry} (he : e.takesAxis = true) (es : List Entry) :
    taken (e :: es) = taken es + 1 := List.countP_cons_of_pos he

theorem taken_skip {e : Entry} (he : e.takesAxis = false) (es : List Entry) :
    taken (e :: es) = taken es :=
  List.countP_cons_of_neg (by rw [he]; exact Bool.false_ne_true)

theorem taken_append (es es' : List Entry) : taken (es ++ es') = taken es + taken es' :=
  List.countP_append

theorem takers_append (es es' : List Entry) : takers (es ++ es') = takers es ++ takers es' :=
  List.filter_append es es'

theorem taken_replicate_full (count : Nat) : taken (List.replicate count full) = count := by
  rw [taken, List.countP_replicate]
  rfl

theorem takers_replicate_full (count : Nat) :
    takers (List.replicate count full) = List.replicate count full :=
  List.filter_replicate_of_pos rfl

/-- Entries other than an ellipsis take an axis or are new axes. -/
theorem taken_add_count {es : List Entry} (h : ellipsis ∉ es) :
    taken es + es.count newAxis = es.length := by
  induction es with
  | nil => rfl
  | cons e es ih =>
    have ih := ih (List.not_mem_of_not_mem_cons h)
    by_cases he : e.takesAxis = true
    · have hne : e ≠ newAxis := fun hnew => by cases hnew; cases he
      rw [taken_cons he, List.count_cons_of_ne hne, List.length_cons]
      omega
    · cases e with
      | ellipsis => exact absurd List.mem_cons_self h
      | newAxis =>
        rw [taken_skip rfl, List.count_cons_self, List.length_cons]
        omega
      | full | fixed _ | range _ _ _ => exact absurd rfl he

/-! ## Places -/

/-- What stands at the places of entries, when axis `n` is the next one to be taken. -/
def gathered (n : Nat) : List Entry → List Gather
  | [] => []
  | newAxis :: es => .inserted :: gathered n es
  | ellipsis :: es => gathered n es
  | _ :: es => .axis n :: gathered (n + 1) es

theorem gathered_cons {e : Entry} (he : e.takesAxis = true) (n : Nat) (es : List Entry) :
    gathered n (e :: es) = .axis n :: gathered (n + 1) es := by
  cases e with
  | full | fixed _ | range _ _ _ => rfl
  | newAxis | ellipsis => cases he

theorem gathered_append (n : Nat) (es es' : List Entry) :
    gathered n (es ++ es') = gathered n es ++ gathered (n + taken es) es' := by
  induction es generalizing n with
  | nil => rfl
  | cons e es ih =>
    by_cases he : e.takesAxis = true
    · rw [List.cons_append, gathered_cons he, gathered_cons he, taken_cons he, ih,
        List.cons_append, Nat.add_assoc, Nat.add_comm 1]
    · cases e with
      | newAxis => exact congrArg (Gather.inserted :: ·) (ih n)
      | ellipsis => exact ih n
      | full | fixed _ | range _ _ _ => exact absurd rfl he

theorem gathered_replicate_full (n count : Nat) :
    gathered n (List.replicate count full) = (List.range' n count).map .axis := by
  induction count generalizing n with
  | zero => rfl
  | succ count ih => exact congrArg (Gather.axis n :: ·) (ih (n + 1))

/-! ## An ellipsis -/

/-- An ellipsis stands for whole axes, and every other entry for itself. -/
def expand (count : Nat) : Entry → List Entry
  | ellipsis => List.replicate count full
  | e => [e]

/-- Entries with as many whole axes for each ellipsis as the others leave over. -/
def spread (rank : Nat) (es : List Entry) : List Entry :=
  (closed es).flatMap (expand (rank - taken es))

theorem expand_of_ne {e : Entry} (h : e ≠ ellipsis) (count : Nat) : expand count e = [e] := by
  cases e with
  | ellipsis => exact absurd rfl h
  | full | fixed _ | range _ _ _ | newAxis => rfl

theorem flatMap_expand {es : List Entry} (h : ellipsis ∉ es) (count : Nat) :
    es.flatMap (expand count) = es := by
  induction es with
  | nil => rfl
  | cons e es ih =>
    obtain ⟨he, hes⟩ := List.ne_and_not_mem_of_not_mem_cons h
    rw [List.flatMap_cons, expand_of_ne (Ne.symm he), ih hes]
    rfl

/-- There are entries before the ellipsis and behind it, and the ellipsis is at the end if none was
written. -/
theorem exists_closed_eq {es : List Entry} (h : es.count ellipsis ≤ 1) :
    ∃ front back, closed es = front ++ ellipsis :: back ∧ ellipsis ∉ front ∧ ellipsis ∉ back ∧
      taken es = taken front + taken back := by
  by_cases hmem : ellipsis ∈ es
  · obtain ⟨front, back, rfl, hfront⟩ := List.eq_append_cons_of_mem hmem
    refine ⟨front, back, if_pos (List.contains_iff_mem.mpr hmem), hfront, fun hback => ?_, ?_⟩
    · rw [List.count_append, List.count_cons_self] at h
      have := List.count_pos_iff.mpr hback
      omega
    · rw [taken_append, taken_skip rfl]
  · exact ⟨es, [], if_neg fun hc => hmem (List.contains_iff_mem.mp hc), hmem, List.not_mem_nil, rfl⟩

theorem spread_eq {rank : Nat} {es front back : List Entry}
    (hclosed : closed es = front ++ ellipsis :: back) (hfront : ellipsis ∉ front)
    (hback : ellipsis ∉ back) :
    spread rank es = front ++ (List.replicate (rank - taken es) full ++ back) := by
  rw [spread, hclosed, List.flatMap_append, List.flatMap_cons, flatMap_expand hfront,
    flatMap_expand hback]
  rfl

/-- Expanded entries take every axis. -/
theorem taken_spread {rank : Nat} {es : List Entry} (hone : es.count ellipsis ≤ 1)
    (h : taken es ≤ rank) : taken (spread rank es) = rank := by
  obtain ⟨front, back, hclosed, hfront, hback, htaken⟩ := exists_closed_eq hone
  rw [spread_eq hclosed hfront hback, taken_append, taken_append, taken_replicate_full]
  omega

theorem insertedAfter_eq {front back : List Entry} (h : ellipsis ∉ front) :
    insertedAfter (front ++ ellipsis :: back) = back.count newAxis := by
  have hfront : ∀ e ∈ front, (e != ellipsis) = true := fun e he =>
    bne_iff_ne.mpr fun heq => h (heq ▸ he)
  rw [insertedAfter, List.dropWhile_append_of_pos hfront, List.dropWhile_cons_of_neg (by decide),
    List.count_cons_of_ne (show ellipsis ≠ newAxis by decide)]

end Entry

open Entry

/-! ## The pass -/

namespace Dense

variable {rank : Nat}

/-- What entries without an ellipsis come to: each one that takes an axis has taken the next. -/
def bound (rank : Nat) (es : List Entry) : Dense where
  entries := takers es ++ List.replicate (rank - taken es) .full
  gather := gathered 0 es
  next := taken es

theorem bound_insert (rank : Nat) (es : List Entry) :
    (bound rank es).insert = bound rank (es ++ [.newAxis]) := by
  unfold bound insert
  rw [takers_append, taken_append, gathered_append, Nat.zero_add]
  simp only [show takers [.newAxis] = [] from rfl, show taken [.newAxis] = 0 from rfl,
    List.append_nil, Nat.add_zero]
  rfl

theorem bound_bind {es : List Entry} {e : Entry} (he : e.takesAxis = true) (h : taken es < rank) :
    (bound rank es).bind e = bound rank (es ++ [e]) := by
  obtain ⟨left, hleft⟩ : ∃ left, rank - taken es = left + 1 := ⟨rank - taken es - 1, by omega⟩
  have htakers : takers [e] = [e] := List.filter_cons_of_pos he
  have htaken : taken [e] = 1 := taken_cons he []
  have hgathered : gathered (taken es) [e] = [.axis (taken es)] := gathered_cons he _ []
  unfold bound bind
  rw [takers_append, taken_append, gathered_append, Nat.zero_add, hgathered, htakers, htaken]
  dsimp only
  rw [List.set_append_right _ _ (Nat.le_of_eq (taken_eq es).symm), taken_eq, Nat.sub_self,
    ← taken_eq, hleft, List.replicate_succ, List.set_cons_zero,
    show rank - (taken es + 1) = left by omega, List.append_assoc]
  rfl

/-- Axes that are skipped are taken whole. -/
theorem bound_skipTo {es : List Entry} {stop : Int} {n : Nat} (hn : (stop - taken es).toNat = n)
    (h : taken es + n ≤ rank) :
    (bound rank es).skipTo stop = bound rank (es ++ List.replicate n .full) := by
  obtain ⟨left, hleft⟩ := Nat.exists_eq_add_of_le h
  unfold bound skipTo
  rw [takers_append, taken_append, gathered_append, Nat.zero_add, takers_replicate_full,
    taken_replicate_full, gathered_replicate_full, List.append_assoc, hn, hleft,
    Nat.add_sub_cancel_left, Nat.add_assoc, Nat.add_sub_cancel_left,
    List.replicate_append_replicate]

/-- Entries without an ellipsis take one axis after the other, until there are no more. -/
theorem foldlM_add {front es : List Entry} (hes : .ellipsis ∉ es) (h : taken front ≤ rank)
    (count inserted i : Nat) : (es.zipIdx i).foldlM (add rank count inserted) (bound rank front) =
      if taken front + taken es ≤ rank then .ok (bound rank (front ++ es))
      else .error (.tooManyEntries rank) := by
  induction es generalizing front i with
  | nil =>
    rw [List.append_nil]
    exact (if_pos h).symm
  | cons e es ih =>
    obtain ⟨he, hrest⟩ := List.ne_and_not_mem_of_not_mem_cons hes
    rw [List.zipIdx_cons, List.foldlM_cons, List.append_cons]
    by_cases htakes : e.takesAxis = true
    · have hadd : add rank count inserted (bound rank front) (e, i) =
          if taken front = rank then .error (.tooManyEntries (taken front))
          else .ok ((bound rank front).bind e) := by
        cases e with
        | full | fixed _ | range _ _ _ => rfl
        | newAxis | ellipsis => cases htakes
      rw [taken_cons htakes, hadd]
      by_cases hfull : taken front = rank
      · rw [if_pos hfull, if_neg (by omega), hfull]
        rfl
      · have htaken : taken (front ++ [e]) = taken front + 1 := by
          rw [taken_append, taken_cons htakes]
          rfl
        rw [if_neg hfull, bound_bind htakes (Nat.lt_of_le_of_ne h hfull)]
        refine (ih hrest (by omega) (i + 1)).trans ?_
        rw [htaken, Nat.add_assoc, Nat.add_comm 1]
    · have hnew : e = .newAxis := by
        cases e with
        | newAxis => rfl
        | ellipsis => exact absurd rfl he
        | full | fixed _ | range _ _ _ => exact absurd rfl htakes
      have htaken : taken (front ++ [.newAxis]) = taken front := by
        rw [taken_append]
        rfl
      have hadd : add rank count inserted (bound rank front) (.newAxis, i) =
          .ok (bound rank (front ++ [.newAxis])) := congrArg Except.ok (bound_insert rank front)
      rw [hnew, taken_skip rfl, hadd]
      refine (ih hrest (by omega) (i + 1)).trans ?_
      rw [htaken]

/-- An ellipsis spans what the other entries leave over. -/
theorem add_ellipsis {front back : List Entry} (hback : .ellipsis ∉ back) (h : taken front ≤ rank) :
    add rank (front ++ .ellipsis :: back).length (back.count .newAxis) (bound rank front)
        (.ellipsis, front.length) =
      .ok (bound rank
        (front ++ List.replicate (rank - (taken front + taken back)) .full)) := by
  have hlength := taken_add_count hback
  refine congrArg Except.ok (bound_skipTo ?_ (by omega))
  rw [List.length_append, List.length_cons]
  omega

/-- The pass comes to what the entries with the ellipsis expanded come to, and stops if there are
not enough axes. -/
theorem ofEntries_eq {es : List Entry} (hone : es.count .ellipsis ≤ 1) :
    ofEntries rank (closed es) =
      if taken es ≤ rank then .ok (bound rank (spread rank es))
      else .error (.tooManyEntries rank) := by
  obtain ⟨front, back, hclosed, hfront, hback, htaken⟩ := exists_closed_eq hone
  have hunbound : unbound rank = bound rank [] := rfl
  rw [spread_eq hclosed hfront hback, ofEntries, hclosed, insertedAfter_eq hfront,
    List.zipIdx_append, List.foldlM_append, hunbound, foldlM_add hfront (Nat.zero_le rank),
    show taken [] = 0 from rfl, Nat.zero_add, List.nil_append]
  by_cases hover : taken front ≤ rank
  · have hspan : taken (front ++ List.replicate (rank - taken es) .full) =
        taken front + (rank - taken es) := by rw [taken_append, taken_replicate_full]
    rw [if_pos hover, Nat.zero_add]
    show List.foldlM _ (bound rank front) _ = _
    rw [List.zipIdx_cons, List.foldlM_cons, add_ellipsis hback hover, ← htaken]
    refine (foldlM_add hback (by omega) _ _ (front.length + 1)).trans ?_
    rw [hspan, List.append_assoc]
    exact if_congr (by omega) rfl rfl
  · rw [if_neg hover, if_neg (by omega)]
    rfl

example : (ofEntries 4 [.fixed 1, .ellipsis, .newAxis, .fixed 2]).map (·.gather) =
    .ok [.axis 0, .axis 1, .axis 2, .inserted, .axis 3] := rfl

end Dense

end Hyperslab
