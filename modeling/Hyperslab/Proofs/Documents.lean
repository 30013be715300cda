import Hyperslab.Json.Reader
import Hyperslab.Proofs.Numerals

/-!
# Texts of data read back

A list is written with its items one behind the other, so its tokens are those of its
items with commas between them.  Reading them leaves the stack of open lists as it was
and puts the finished list on top of it.
-/

namespace Hyperslab
namespace Json

open Number (binary64)

/-! ## Texts and their tokens -/

/-- The tokens of a text; every bound that leaves room for them finds them. -/
def Scans (cs : List Char) (ts : List Token) : Prop :=
  ∀ count, ts.length ≤ count → tokensUpTo count cs = some ts

namespace Scans

variable {c : Char} {cs rest : List Char} {t : Token} {ts : List Token}

theorem nil : Scans [] [] := fun count _ => by
  cases count <;> rfl

theorem space (hc : isSpace c = true) (h : Scans cs ts) : Scans (c :: cs) ts := by
  intro count hcount
  have := h count hcount
  unfold tokensUpTo at this ⊢
  rwa [List.dropWhile_cons_of_pos hc]

theorem token (hc : isSpace c = false) (hscan : scan (c :: cs) = some (t, rest))
    (h : Scans rest ts) : Scans (c :: cs) (t :: ts) := by
  intro count hcount
  obtain ⟨n, rfl⟩ := Nat.exists_eq_succ_of_ne_zero (show count ≠ 0 by
    rw [List.length_cons] at hcount
    omega)
  unfold tokensUpTo
  rw [List.dropWhile_cons_of_neg (by simp [hc])]
  dsimp only
  rw [hscan]
  dsimp only
  rw [h n (Nat.le_of_succ_le_succ hcount)]
  rfl

theorem line (depth : ℕ) (h : Scans cs ts) : Scans (newLine depth ++ cs) ts := by
  refine space rfl ?_
  generalize 2 * depth = n
  induction n with
  | zero => exact h
  | succ n ih => exact space rfl ih

end Scans

theorem stops_nil : Stops [] := nofun

theorem stops_comma (cs : List Char) : Stops (',' :: cs) := fun _ hc =>
  .inl (Option.some.inj hc).symm

theorem stops_newLine (depth : ℕ) (cs : List Char) : Stops (newLine depth ++ cs) := fun _ hc =>
  .inr (Option.some.inj hc).symm

/-! ## Values and their tokens -/

/-- The tokens with which `v` is written are read as `w`. -/
structure Spelt (v w : Value) (ts : List Token) : Prop where
  scans : ∀ (depth : ℕ) {rest : List Char} {tail : List Token}, Stops rest → Scans rest tail →
    Scans (form depth v ++ rest) (ts ++ tail)
  run : ∀ stack, ts.foldlM State.step (.value stack) = some (.after w stack)
  /-- The first token starts an item of a list as well. -/
  starts : ∃ t more, ts = t :: more ∧
    ∀ stack, State.step (.items stack) t = State.step (.value (.list [] :: stack)) t
  short : ts.any isLong = false
  length_le : ∀ depth, ts.length ≤ (form depth v).length

/-- What is written for `v` is read as `w`. -/
def ReadsAs (v w : Value) : Prop := ∃ ts, Spelt v w ts

theorem Spelt.run_items {v w : Value} {ts : List Token} (h : Spelt v w ts) (stack : List Frame) :
    ts.foldlM State.step (.items stack) = some (.after w (.list [] :: stack)) := by
  obtain ⟨t, more, rfl, hstep⟩ := h.starts
  rw [← h.run, List.foldlM_cons, List.foldlM_cons, hstep]

theorem scan_space {c : Char} (hc : isSpace c = true) (cs : List Char) :
    scan (c :: cs) = none := by
  simp only [isSpace, Bool.or_eq_true, beq_iff_eq] at hc
  rcases hc with ((rfl | rfl) | rfl) | rfl <;> rfl

/-- A value that is written as one token. -/
theorem readsAs_atom {v w : Value} (hform : ∀ depth, form depth v = atomForm v)
    (hscan : ∀ rest, Stops rest → scan (atomForm v ++ rest) = some (.atom w, rest))
    (hshort : isLong (.atom w) = false) : ReadsAs v w := by
  obtain ⟨c, cs, hcs, hspace⟩ : ∃ c cs, atomForm v = c :: cs ∧ isSpace c = false := by
    have hscan := hscan [] stops_nil
    rw [List.append_nil] at hscan
    cases hcs : atomForm v with
    | nil =>
      rw [hcs] at hscan
      cases hscan
    | cons c cs =>
      refine ⟨c, cs, rfl, Bool.eq_false_iff.mpr fun hc => ?_⟩
      rw [hcs, scan_space hc] at hscan
      cases hscan
  refine ⟨[.atom w], fun depth rest tail hrest h => ?_, fun stack => rfl,
    ⟨_, _, rfl, fun stack => rfl⟩, by simpa using hshort, fun depth => ?_⟩
  · have hscan := hscan rest hrest
    rw [hform, hcs] at *
    exact Scans.token hspace hscan h
  · rw [hform, hcs]
    exact Nat.succ_le_succ (Nat.zero_le _)

/-! ## Lists -/

/-- The tokens of further items, each with its comma, and of the end of the list. -/
structure SpeltItems (vs ws : List Value) (ts : List Token) : Prop where
  scans : ∀ (depth : ℕ) {rest : List Char} {tail : List Token}, Scans rest tail →
    Scans (itemForms (depth + 1) vs ++ newLine depth ++ ']' :: rest) (ts ++ tail)
  stops : ∀ (depth : ℕ) (rest : List Char),
    Stops (itemForms (depth + 1) vs ++ newLine depth ++ ']' :: rest)
  run : ∀ w done stack, ts.foldlM State.step (.after w (.list done :: stack)) =
    some (.after (.list ((w :: done).reverse ++ ws)) stack)
  short : ts.any isLong = false
  length_le : ∀ depth, ts.length ≤ (itemForms (depth + 1) vs).length + 1

theorem exists_speltItems {vs ws : List Value} (h : List.Forall₂ ReadsAs vs ws) :
    ∃ ts, SpeltItems vs ws ts := by
  induction h with
  | nil =>
    refine ⟨[.closeList], fun depth rest tail h => ?_, fun depth rest => ?_,
      fun w done stack => ?_, rfl, fun depth => ?_⟩
    · exact Scans.line depth (Scans.token rfl rfl h)
    · exact stops_newLine depth _
    · rw [List.append_nil]
      rfl
    · exact le_rfl
  | @cons v w vs ws hv _ ih =>
    obtain ⟨ts, hts⟩ := hv
    obtain ⟨more, hmore⟩ := ih
    refine ⟨.comma :: ts ++ more, fun depth rest tail h => ?_, fun depth rest => ?_,
      fun u done stack => ?_, ?_, fun depth => ?_⟩
    · have hitem := hts.scans (depth + 1) (hmore.stops depth rest) (hmore.scans depth h)
      rw [itemForms]
      simp only [List.append_assoc, List.cons_append] at hitem ⊢
      exact Scans.token rfl rfl (Scans.line _ hitem)
    · exact stops_comma _
    · rw [List.cons_append, List.foldlM_cons]
      show (ts ++ more).foldlM State.step (.value (.list (u :: done) :: stack)) = _
      rw [List.foldlM_append, hts.run]
      show more.foldlM State.step (.after w (.list (u :: done) :: stack)) = _
      rw [hmore.run, List.reverse_cons, List.append_assoc]
      rfl
    · rw [List.cons_append, List.any_cons, List.any_append, hts.short, hmore.short]
      rfl
    · have h₁ := hts.length_le (depth + 1)
      have h₂ := hmore.length_le depth
      rw [itemForms]
      simp only [List.cons_append, List.length_cons, List.length_append] at *
      omega

/-- A list is read back item by item. -/
theorem readsAs_list {vs ws : List Value} (h : List.Forall₂ ReadsAs vs ws) :
    ReadsAs (.list vs) (.list ws) := by
  cases h with
  | nil =>
    refine ⟨[.openList, .closeList], fun depth rest tail _ h => ?_, fun stack => rfl,
      ⟨_, _, rfl, fun stack => rfl⟩, rfl, fun depth => ?_⟩
    · rw [form]
      exact Scans.token rfl rfl (Scans.token rfl rfl h)
    · rw [form]
      exact le_rfl
  | @cons v w vs ws hv hvs =>
    obtain ⟨ts, hts⟩ := hv
    obtain ⟨more, hmore⟩ := exists_speltItems hvs
    refine ⟨.openList :: ts ++ more, fun depth rest tail _ h => ?_, fun stack => ?_,
      ⟨_, _, rfl, fun stack => rfl⟩, ?_, fun depth => ?_⟩
    · have hitem := hts.scans (depth + 1) (hmore.stops depth rest) (hmore.scans depth h)
      rw [form]
      simp only [List.append_assoc, List.cons_append, List.nil_append] at hitem ⊢
      exact Scans.token rfl rfl (Scans.line _ hitem)
    · rw [List.cons_append, List.foldlM_cons]
      show (ts ++ more).foldlM State.step (.items stack) = _
      rw [List.foldlM_append, hts.run_items]
      exact hmore.run w [] stack
    · rw [List.cons_append, List.any_cons, List.any_append, hts.short, hmore.short]
      rfl
    · have h₁ := hts.length_le (depth + 1)
      have h₂ := hmore.length_le depth
      rw [form]
      simp only [List.cons_append, List.length_cons, List.length_append] at *
      omega

/-! ## Texts -/

theorem read_write {v w : Value} (h : ReadsAs v w) : read (write v) = .ok w := by
  obtain ⟨ts, hts⟩ := h
  have htokens : tokens (form 0 v) = some ts := by
    have hscans := hts.scans 0 stops_nil Scans.nil
    rw [List.append_nil, List.append_nil] at hscans
    exact hscans _ (hts.length_le 0)
  have hvalue : ofTokens? ts = some w := by
    rw [ofTokens?, hts.run]
    rfl
  rw [read, write, String.toList_ofList, htokens]
  dsimp only
  rw [hvalue]
  dsimp only
  rw [hts.short, if_neg Bool.false_ne_true]

/-! ## Atoms -/

theorem readsAs_boolean (b : Bool) : ReadsAs (.boolean b) (.boolean b) := by
  cases b <;> exact readsAs_atom (fun depth => by simp [form]) (fun rest _ => rfl) rfl

theorem readsAs_whole {n : ℤ} (hn : n.natAbs < leastLong) : ReadsAs (.whole n) (.whole n) := by
  refine readsAs_atom (fun depth => by simp [form]) (fun rest hrest => scan_whole hrest n) ?_
  rw [isLong, decide_eq_false_iff_not, not_le]
  exact hn

theorem readsAs_float (bits : ℕ) :
    ReadsAs (.float bits) (.float (binary64.write (binary64.read bits))) :=
  readsAs_atom (fun depth => by simp [form]) (fun rest hrest => scan_float hrest bits) rfl

end Json
end Hyperslab
