import Mathlib.Data.List.Infix
import WidthCheck.Proofs.Text.Words
import WidthCheck.Text.Find

/-!
# Trimming, cutting and searching

Trimming takes the blanks off both ends and leaves the rest. Cutting a text at a character is the
library's own splitting, and does not mind blanks at the ends of the pieces once they are trimmed.
The first occurrence of a character is the one with none before it.
-/

namespace WidthCheck.Text

/-! ## Trimming -/

/-- Neither the first nor the last character is blank. -/
def IsTrimmed (cs : List Char) : Prop :=
  (∀ c ∈ cs.head?, isBlank c = false) ∧ ∀ c ∈ cs.getLast?, isBlank c = false

-- Looks at the two characters, and not at all there are.
instance (cs : List Char) : Decidable (IsTrimmed cs) :=
  @instDecidableAnd _ _ (Option.decidableForallMem cs.head?)
    (Option.decidableForallMem cs.getLast?)

theorem trimLeft_append {cs : List Char} (hne : cs ≠ [])
    (hfirst : ∀ c ∈ cs.head?, isBlank c = false) {gap : List Char}
    (hgap : ∀ c ∈ gap, isBlank c = true) (rest : List Char) :
    trimLeft (gap ++ (cs ++ rest)) = cs ++ rest := by
  cases cs with
  | nil => exact absurd rfl hne
  | cons c cs =>
    rw [trimLeft, List.dropWhile_append_of_pos hgap, List.cons_append,
      List.dropWhile_cons_of_neg (by simpa using hfirst c rfl)]

theorem trimRight_append {cs : List Char} (hne : cs ≠ [])
    (hlast : ∀ c ∈ cs.getLast?, isBlank c = false) {gap : List Char}
    (hgap : ∀ c ∈ gap, isBlank c = true) : trimRight (cs ++ gap) = cs := by
  have hreverse : trimLeft (gap.reverse ++ (cs.reverse ++ [])) = cs.reverse ++ [] :=
    trimLeft_append (by simpa using hne) (by simpa using hlast) (by simpa using hgap) []
  rw [List.append_nil, trimLeft] at hreverse
  rw [trimRight, List.reverse_append, hreverse, List.reverse_reverse]

/-- Blanks around a text that has none at its ends are what trimming takes off. -/
theorem IsTrimmed.trim_append {cs : List Char} (h : IsTrimmed cs) (hne : cs ≠ [])
    {before after : List Char} (hbefore : ∀ c ∈ before, isBlank c = true)
    (hafter : ∀ c ∈ after, isBlank c = true) : trim (before ++ (cs ++ after)) = cs := by
  rw [trim, trimLeft_append hne h.1 hbefore, trimRight_append hne h.2 hafter]

theorem IsTrimmed.trim_eq {cs : List Char} (h : IsTrimmed cs) (hne : cs ≠ []) : trim cs = cs := by
  have hpadded : trim ([] ++ (cs ++ [])) = cs := h.trim_append hne (by simp) (by simp)
  rwa [List.nil_append, List.append_nil] at hpadded

theorem trim_cons_of_isBlank {c : Char} (hc : isBlank c = true) (cs : List Char) :
    trim (c :: cs) = trim cs := by
  rw [trim, trimLeft, List.dropWhile_cons_of_pos hc]
  rfl

theorem trim_space (cs : List Char) : trim (' ' :: cs) = trim cs :=
  trim_cons_of_isBlank (by decide) cs

/-! ## Cutting -/

theorem splitWhere_eq_splitOnP {α : Type} (p : α → Bool) (cs : List α) :
    splitWhere p cs = cs.splitOnP p := by
  induction cs with
  | nil => rw [splitWhere_nil, List.splitOnP_nil]
  | cons c cs ih =>
    rw [List.splitOnP_cons_eq_if_modifyHead, ← ih]
    split
    · rename_i hc
      exact splitWhere_cons_of_true hc cs
    · rename_i hc
      exact splitWhere_cons_of_false (by simpa using hc) cs

-- Blanks in front of a text are in front of its first piece.
theorem map_trim_splitWhere_trimLeft {p : Char → Bool} (hp : ∀ c, isBlank c = true → p c = false)
    (cs : List Char) :
    (splitWhere p (trimLeft cs)).map trim = (splitWhere p cs).map trim := by
  induction cs with
  | nil => rfl
  | cons c cs ih =>
    by_cases hc : isBlank c = true
    · rw [trimLeft, List.dropWhile_cons_of_pos hc, ← trimLeft, ih,
        splitWhere_cons_of_false (hp c hc)]
      cases splitWhere p cs with
      | nil => rfl
      | cons piece pieces =>
        rw [List.modifyHead_cons, List.map_cons, List.map_cons, trim_cons_of_isBlank hc]
    · rw [trimLeft, List.dropWhile_cons_of_neg hc]

/-! ## Searching -/

theorem splitFirst_of_not_mem {c : Char} {before : List Char} (h : c ∉ before)
    (after : List Char) : splitFirst [c] (before ++ c :: after) = some (before, after) := by
  induction before with
  | nil => simp [splitFirst, List.isPrefixOf?]
  | cons d before ih =>
    obtain ⟨hne, hrest⟩ := List.ne_and_not_mem_of_not_mem_cons h
    rw [List.cons_append, splitFirst, ih hrest]
    simp [List.isPrefixOf?, hne]

-- Searching finds every occurrence there is.
theorem contains_iff {pattern cs : List Char} : contains pattern cs = true ↔ pattern <:+: cs := by
  unfold contains
  induction cs with
  | nil =>
    rw [splitFirst, List.infix_nil]
    split <;> simp_all
  | cons c cs ih =>
    rw [splitFirst, List.infix_cons_iff, ← ih]
    cases hprefix : pattern.isPrefixOf? (c :: cs) with
    | some rest =>
      have heq := List.append_eq_of_isPrefixOf?_eq_some hprefix
      simp [show pattern <+: c :: cs from ⟨rest, heq⟩]
    | none =>
      have hnot : ¬pattern <+: c :: cs := by
        rw [← List.isPrefixOf_iff_prefix, ← List.isSome_isPrefixOf?_eq_isPrefixOf, hprefix]
        exact Bool.false_ne_true
      simp [hnot]

theorem isSuffixOf?_eq_none {cs tail : List Char} (h : ¬tail <:+ cs) :
    tail.isSuffixOf? cs = none := by
  cases hsuffix : tail.isSuffixOf? cs with
  | none => rfl
  | some front => exact absurd ⟨front, List.append_eq_of_isSuffixOf?_eq_some hsuffix⟩ h

end WidthCheck.Text
