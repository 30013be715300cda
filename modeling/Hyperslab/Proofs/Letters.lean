import Hyperslab.Text.Case
import Hyperslab.Proofs.Trimming

/-!
# Small letters

Lower case leaves small letters as they are, so it changes a text once at most, and it makes no
blanks.  The small letters of a run of capitals are compared with the other characters by their
bounds and their parity, which is checked once for the whole table.
-/

namespace Hyperslab
namespace Text

/-! ## The table of capitals -/

/-- Every `stride`-th number from `first` to `last`. -/
structure NumberRow where
  first : ℕ
  last : ℕ
  stride : ℕ

namespace NumberRow

def Contains (s : NumberRow) (n : ℕ) : Prop :=
  s.first ≤ n ∧ n ≤ s.last ∧ (n - s.first) % s.stride = 0

end NumberRow

namespace CapitalRun

def row (r : CapitalRun) : NumberRow := ⟨r.first, r.last, r.stride⟩

/-- The number of the small letter of a capital. -/
def small (r : CapitalRun) (n : ℕ) : ℕ := ((n : ℤ) + r.shift).toNat

/-- The small letters of a run are outside the bounds of a row, or they have the other parity. -/
def misses (r : CapitalRun) (s : NumberRow) : Bool :=
  Nat.blt (r.small r.last) s.first || Nat.blt s.last (r.small r.first) ||
    (Nat.beq s.stride 2 && (Nat.beq r.stride 2 || Nat.beq r.first r.last) &&
      Nat.blt 0 (r.small r.first) && Nat.beq ((r.small r.first + s.first) % 2) 1)

variable {r : CapitalRun} {n : ℕ}

theorem row_contains (h : r.contains n = true) : r.row.Contains n := by
  simpa [contains, row, NumberRow.Contains, and_assoc] using h

theorem small_le_last (h : r.contains n = true) : r.small n ≤ r.small r.last := by
  have hlast : n ≤ r.last := (row_contains h).2.1
  unfold small
  omega

theorem not_contains_small {s : NumberRow} (hmisses : r.misses s = true)
    (h : r.contains n = true) : ¬ s.Contains (r.small n) := by
  obtain ⟨hfirst, hlast, hstride⟩ := row_contains h
  simp only [row] at hfirst hlast hstride
  simp only [misses, Bool.or_eq_true, Bool.and_eq_true, Nat.blt_eq, Nat.beq_eq] at hmisses
  rintro ⟨hlow, hhigh, hmod⟩
  unfold small at *
  rcases hmisses with (h | h) | ⟨⟨⟨htwo, h⟩, hpos⟩, hodd⟩
  · omega
  · omega
  · rw [htwo] at hmod
    rcases h with hrow | hone
    · rw [hrow] at hstride
      omega
    · omega

end CapitalRun

def blankRows : List NumberRow :=
  [⟨9, 13, 1⟩, ⟨28, 32, 1⟩, ⟨0x85, 0x85, 1⟩, ⟨0xA0, 0xA0, 1⟩, ⟨0x1680, 0x1680, 1⟩,
    ⟨0x2000, 0x200A, 1⟩, ⟨0x2028, 0x2029, 1⟩, ⟨0x202F, 0x202F, 1⟩, ⟨0x205F, 0x205F, 1⟩,
    ⟨0x3000, 0x3000, 1⟩]

theorem exists_blankRow {c : Char} (h : isBlank c = true) :
    ∃ s ∈ blankRows, s.Contains c.toNat := by
  simp only [isBlank, Bool.or_eq_true, Bool.and_eq_true, decide_eq_true_eq, beq_iff_eq] at h
  simp only [blankRows, List.mem_cons, exists_eq_or_imp, List.not_mem_nil, false_and, exists_false,
    NumberRow.Contains, Nat.mod_one, and_true]
  omega

/-- The numbers that no small letter has: those of the dotted capital I, of the other capitals, of
the blanks, and of no character. -/
def otherRows : List NumberRow :=
  ⟨0x130, 0x130, 1⟩ :: ⟨0xD800, 0xDFFF, 1⟩ :: (capitalRuns.map CapitalRun.row ++ blankRows)

theorem capitalRuns_misses : (capitalRuns.all fun r =>
    Nat.blt (r.small r.last) 0x110000 && otherRows.all r.misses) = true := by
  decide +kernel

/-! ## Characters -/

/-- A character that lower case leaves as it is, and no blank. -/
structure Small (c : Char) : Prop where
  lowered : lowerChar c = [c]
  not_blank : isBlank c = false

variable {c d : Char}

theorem small_of_not_contains (h : ∀ s ∈ otherRows, ¬ s.Contains c.toNat) : Small c := by
  simp only [otherRows, List.forall_mem_cons, List.forall_mem_append, List.forall_mem_map] at h
  obtain ⟨hdotted, -, hcapitals, hblanks⟩ := h
  refine ⟨?_, Bool.eq_false_iff.mpr fun hblank => ?_⟩
  · have hone : c.toNat ≠ 0x130 := fun heq => hdotted ⟨heq.ge, heq.le, Nat.mod_one _⟩
    have hnone : capitalRuns.find? (·.contains c.toNat) = none :=
      List.find?_eq_none.mpr fun r hr hcontains =>
        hcapitals r hr (CapitalRun.row_contains hcontains)
    rw [lowerChar, if_neg hone, hnone]
  · obtain ⟨s, hs, hcontains⟩ := exists_blankRow hblank
    exact hblanks s hs hcontains

theorem small_of_capital {r : CapitalRun} (hr : r ∈ capitalRuns) {n : ℕ}
    (h : r.contains n = true) : Small (Char.ofNat (r.small n)) := by
  obtain ⟨hbound, hmisses⟩ := Bool.and_eq_true_iff.mp (List.all_eq_true.mp capitalRuns_misses r hr)
  have hother : ∀ s ∈ otherRows, ¬ s.Contains (r.small n) := fun s hs =>
    CapitalRun.not_contains_small (List.all_eq_true.mp hmisses s hs) h
  have hvalid : (r.small n).isValidChar := by
    have hlast := CapitalRun.small_le_last h
    have hgap : ¬ (0xD800 ≤ r.small n ∧ r.small n ≤ 0xDFFF) := fun ⟨hlow, hhigh⟩ =>
      hother _ (List.mem_cons_of_mem _ List.mem_cons_self) ⟨hlow, hhigh, Nat.mod_one _⟩
    rw [Nat.blt_eq] at hbound
    unfold Nat.isValidChar
    omega
  have htoNat : (Char.ofNat (r.small n)).toNat = r.small n := by
    rw [Char.ofNat, dif_pos hvalid]
    rfl
  refine small_of_not_contains ?_
  rwa [htoNat]

/-- A character that lower case changes becomes small letters. -/
theorem small_of_mem_lowerChar (hc : lowerChar c ≠ [c]) (hd : d ∈ lowerChar c) : Small d := by
  unfold lowerChar at hc hd
  split_ifs at hc hd with hdotted
  · rcases List.mem_pair.mp hd with rfl | rfl
    · exact ⟨by decide, by decide⟩
    · exact ⟨by decide, by decide⟩
  · split at hd
    · rename_i r hr
      rw [List.mem_singleton.mp hd]
      have hcontains : r.contains c.toNat = true := by simpa using List.find?_some hr
      exact small_of_capital (List.mem_of_find?_eq_some hr) hcontains
    · rename_i hnone
      rw [hnone] at hc
      exact absurd rfl hc

theorem lowerChar_of_mem (hd : d ∈ lowerChar c) : lowerChar d = [d] := by
  by_cases hc : lowerChar c = [c]
  · rw [hc, List.mem_singleton] at hd
    rw [hd, hc]
  · exact (small_of_mem_lowerChar hc hd).lowered

theorem isBlank_of_mem_lowerChar (hd : d ∈ lowerChar c) (hblank : isBlank c = false) :
    isBlank d = false := by
  by_cases hc : lowerChar c = [c]
  · rw [hc, List.mem_singleton] at hd
    rwa [hd]
  · exact (small_of_mem_lowerChar hc hd).not_blank

theorem lowerChar_ne_nil (c : Char) : lowerChar c ≠ [] := by
  unfold lowerChar
  split_ifs
  · exact List.cons_ne_nil _ _
  · split <;> exact List.cons_ne_nil _ _

/-! ## Characters between others -/

variable {before after : List Char}

/-- The two forms of a sigma are small letters both. -/
theorem small_or_mem_lowerChar (hd : d ∈ lowerAt before c after) : Small d ∨ d ∈ lowerChar c := by
  unfold lowerAt at hd
  split_ifs at hd
  · rw [List.mem_singleton.mp hd]
    exact .inl ⟨by decide, by decide⟩
  · exact .inr hd

theorem lowerChar_of_mem_lowerAt (hd : d ∈ lowerAt before c after) : lowerChar d = [d] := by
  rcases small_or_mem_lowerChar hd with hsmall | hmem
  · exact hsmall.lowered
  · exact lowerChar_of_mem hmem

theorem isBlank_of_mem_lowerAt (hd : d ∈ lowerAt before c after) (hblank : isBlank c = false) :
    isBlank d = false := by
  rcases small_or_mem_lowerChar hd with hsmall | hmem
  · exact hsmall.not_blank
  · exact isBlank_of_mem_lowerChar hmem hblank

theorem lowerAt_ne_nil (before : List Char) (c : Char) (after : List Char) :
    lowerAt before c after ≠ [] := by
  unfold lowerAt
  split_ifs
  · exact List.cons_ne_nil _ _
  · exact lowerChar_ne_nil c

theorem lowerAt_eq_self (h : lowerChar c = [c]) : lowerAt before c after = [c] := by
  have hsigma : c.toNat ≠ 0x3A3 := fun heq => by
    obtain rfl : c = Char.ofNat 0x3A3 := by rw [← heq, Char.ofNat_toNat]
    exact absurd h (by decide)
  rw [lowerAt, if_neg (by simp [hsigma]), h]

/-! ## Texts -/

variable {cs : List Char}

theorem lowerFrom_eq_self (h : ∀ c ∈ cs, lowerChar c = [c]) : lowerFrom before cs = cs := by
  induction cs generalizing before with
  | nil => rfl
  | cons c cs ih =>
    obtain ⟨hc, hcs⟩ := List.forall_mem_cons.mp h
    rw [lowerFrom, lowerAt_eq_self hc, ih hcs]
    rfl

theorem lower_eq_self (h : ∀ c ∈ cs, lowerChar c = [c]) : lower cs = cs := lowerFrom_eq_self h

/-- The end of a text is in small letters what it is behind the characters before it. -/
theorem lowerFrom_suffix (before cs ds : List Char) :
    lowerFrom (cs.reverse ++ before) ds <:+ lowerFrom before (cs ++ ds) := by
  induction cs generalizing before with
  | nil => exact List.suffix_refl _
  | cons c cs ih =>
    rw [List.reverse_cons, ← List.append_cons]
    exact (ih (c :: before)).trans (List.suffix_append _ _)

theorem lowerChar_of_mem_lowerFrom (hd : d ∈ lowerFrom before cs) : lowerChar d = [d] := by
  induction cs generalizing before with
  | nil => cases hd
  | cons c cs ih =>
    rcases List.mem_append.mp hd with hd | hd
    · exact lowerChar_of_mem_lowerAt hd
    · exact ih hd

theorem lowerChar_of_mem_lower (hd : d ∈ lower cs) : lowerChar d = [d] :=
  lowerChar_of_mem_lowerFrom hd

/-- Lower case does not put blanks at the ends of a text. -/
theorem trimmed_lower (h : Trimmed isBlank cs) : Trimmed isBlank (lower cs) where
  head d hd := by
    cases cs with
    | nil => cases hd
    | cons c cs =>
      rw [lower, lowerFrom, List.head?_append_of_ne_nil _ (lowerAt_ne_nil [] c cs)] at hd
      exact isBlank_of_mem_lowerAt (List.mem_of_head? hd) (h.head c rfl)
  last d hd := by
    rcases List.eq_nil_or_concat cs with rfl | ⟨cs, c, rfl⟩
    · cases hd
    · rw [List.concat_eq_append] at hd h
      obtain ⟨front, hfront⟩ := lowerFrom_suffix [] cs [c]
      rw [lowerFrom, lowerFrom, List.append_nil, List.append_nil] at hfront
      rw [lower, ← hfront, List.getLast?_append_of_ne_nil _ (lowerAt_ne_nil _ c [])] at hd
      exact isBlank_of_mem_lowerAt (List.mem_of_getLast? hd) (h.last c (by simp))

end Text
end Hyperslab
