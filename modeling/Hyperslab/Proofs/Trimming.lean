import Mathlib.Data.List.DropRight
import Mathlib.Data.List.TakeWhile
import Hyperslab.Text.Blank

/-!
# Texts trimmed and split

A trimmed text has none of the characters that are trimmed at its ends, and it is what is left of
every text that has only such characters around it.  Parts that were joined by a separator are the
parts into which the text is split.
-/

namespace Hyperslab
namespace Text

section Trim

variable {p : Char → Bool} {cs : List Char}

/-- A text does not start or end with a character that is trimmed. -/
structure Trimmed (p : Char → Bool) (cs : List Char) : Prop where
  head : ∀ c ∈ cs.head?, p c = false
  last : ∀ c ∈ cs.getLast?, p c = false

theorem trimmed_of_forall (h : ∀ c ∈ cs, p c = false) : Trimmed p cs :=
  ⟨fun c hc => h c (List.mem_of_head? hc), fun c hc => h c (List.mem_of_getLast? hc)⟩

theorem dropWhile_eq_self_of_head? (h : ∀ c ∈ cs.head?, p c = false) : cs.dropWhile p = cs := by
  cases cs with
  | nil => rfl
  | cons c cs => exact List.dropWhile_cons_of_neg (by simp [h c rfl])

theorem head?_dropWhile (cs : List Char) : ∀ c ∈ (cs.dropWhile p).head?, p c = false := by
  intro c hc
  have h := List.head?_dropWhile_not p cs
  rwa [Option.mem_def.mp hc] at h

theorem trimWhile_eq_self (h : Trimmed p cs) : trimWhile p cs = cs := by
  have hlast : ∀ c ∈ cs.reverse.head?, p c = false := fun c hc =>
    h.last c (by rwa [List.head?_reverse] at hc)
  rw [trimWhile, dropWhile_eq_self_of_head? h.head, dropWhile_eq_self_of_head? hlast,
    List.reverse_reverse]

@[simp] theorem trimWhile_eq_nil_iff : trimWhile p cs = [] ↔ ∀ c ∈ cs, p c := by
  rw [trimWhile, List.reverse_eq_nil_iff, List.dropWhile_eq_nil_iff]
  simp only [List.mem_reverse]
  refine ⟨fun h => ?_, fun h c hc => h c (List.dropWhile_sublist p |>.subset hc)⟩
  rw [← List.dropWhile_eq_nil_iff]
  by_contra hne
  -- The first character that is left would be both kept and dropped.
  have hfirst := List.head_dropWhile_not p hne
  rw [h _ (List.head_mem hne)] at hfirst
  cases hfirst

theorem trimmed_trimWhile (cs : List Char) : Trimmed p (trimWhile p cs) := by
  refine ⟨fun c hc => ?_, fun c hc => ?_⟩
  · -- Dropping at the end leaves the first character that is kept.
    have hprefix : trimWhile p cs <+: cs.dropWhile p := List.rdropWhile_prefix p _
    obtain ⟨rest, hrest⟩ := hprefix
    refine head?_dropWhile cs c ?_
    rw [← hrest, List.head?_append, Option.mem_def.mp hc]
    rfl
  · rw [trimWhile, List.getLast?_reverse] at hc
    exact head?_dropWhile _ c hc

/-- What is put around a trimmed text is trimmed off again. -/
theorem trimWhile_append {before after : List Char} (hbefore : ∀ c ∈ before, p c)
    (hafter : ∀ c ∈ after, p c) (h : Trimmed p cs) :
    trimWhile p (before ++ cs ++ after) = cs := by
  rcases eq_or_ne cs [] with rfl | hne
  · rw [trimWhile_eq_nil_iff, List.append_nil]
    exact fun c hc => (List.mem_append.mp hc).elim (hbefore c) (hafter c)
  · have hstart : (before ++ cs ++ after).dropWhile p = cs ++ after := by
      rw [List.append_assoc, List.dropWhile_append_of_pos hbefore]
      refine dropWhile_eq_self_of_head? fun c hc => h.head c ?_
      rwa [List.head?_append_of_ne_nil _ hne] at hc
    have hend : ∀ c ∈ after.reverse, p c := fun c hc => hafter c (List.mem_reverse.mp hc)
    rw [trimWhile, hstart, List.reverse_append, List.dropWhile_append_of_pos hend]
    rw [dropWhile_eq_self_of_head? fun c hc => h.last c (by rwa [List.head?_reverse] at hc),
      List.reverse_reverse]

end Trim

section Split

variable {sep : Char} {parts : List (List Char)}

theorem splitAt_eq_splitOn (cs : List Char) : splitAt sep cs = cs.splitOn sep := by
  induction cs with
  | nil => rfl
  | cons c cs ih =>
    rw [splitAt, List.splitOn_cons_eq_if_modifyHead, ih]
    by_cases hc : c = sep
    · rw [if_pos hc, if_pos (beq_iff_eq.mpr hc)]
    · rw [if_neg hc, if_neg (by rwa [beq_iff_eq])]
      obtain ⟨part, parts, hparts⟩ := List.exists_cons_of_ne_nil (List.splitOn_ne_nil sep cs)
      rw [hparts, List.modifyHead_cons]

theorem splitAt_intercalate (hparts : ∀ part ∈ parts, sep ∉ part) (hne : parts ≠ []) :
    splitAt sep ([sep].intercalate parts) = parts := by
  rw [splitAt_eq_splitOn, List.splitOn_intercalate sep hparts hne]

end Split

end Text
end Hyperslab
