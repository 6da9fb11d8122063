import Mathlib.Data.List.Induction
import WidthCheck.CType.Builtin

/-!
# Reading type keywords

The words of a builtin type are read one after the other, and reading stops at a word that does not
fit. What has been read in the end is how often each modifier occurs, and the one base keyword.
-/

namespace WidthCheck.Builtin

/-- The words that may name a type by themselves, and those that are no keywords. -/
def bases (words : List String) : List String := words.filter fun word => !modifiers.contains word

theorem mem_bases_iff {words : List String} {word : String} :
    word ∈ bases words ↔ word ∈ words ∧ word ∉ modifiers := by
  simp [bases]

theorem bases_concat_of_mem {word : String} (h : word ∈ modifiers) (words : List String) :
    bases (words ++ [word]) = bases words := by
  simp [bases, h]

theorem bases_concat_of_not_mem {word : String} (h : word ∉ modifiers) (words : List String) :
    bases (words ++ [word]) = bases words ++ [word] := by
  simp [bases, h]

namespace Tally

/-- What is read of these words if this is their base keyword. -/
def ofWords (words : List String) (base : Option String) : Tally where
  base
  longs := words.count "long"
  short := words.contains "short"
  signed := words.contains "signed"
  unsigned := words.contains "unsigned"

variable {words : List String} {base : Option String} {word : String}

theorem add?_of_mem (h : word ∈ modifiers) :
    (ofWords words base).add? word = some (ofWords (words ++ [word]) base) := by
  simp only [modifiers, List.mem_cons, List.not_mem_nil, or_false] at h
  rcases h with rfl | rfl | rfl | rfl <;> simp [add?, ofWords]

theorem add?_of_not_mem (h : word ∉ modifiers) :
    (ofWords words base).add? word =
      if base = none ∧ word ∈ baseKeywords then some (ofWords (words ++ [word]) (some word))
      else none := by
  have hkeyword : keywords.contains word = true ↔ word ∈ baseKeywords := by simp [keywords, h]
  simp only [modifiers, List.mem_cons, List.not_mem_nil, or_false, not_or] at h
  obtain ⟨hlong, hshort, hsigned, hunsigned⟩ := h
  have hwords : ofWords (words ++ [word]) (some word) =
      { ofWords words base with base := some word } := by
    simp [ofWords, hlong, Ne.symm hshort, Ne.symm hsigned, Ne.symm hunsigned]
  unfold add?
  rw [if_neg hlong, if_neg hshort, if_neg hsigned, if_neg hunsigned, hwords]
  simp only [hkeyword, ofWords]

-- By induction on the end of the words, where the last one is read. A modifier is counted, and any
-- other word is taken if it is the first of them and a base keyword.
theorem foldlM_add?_eq_some_iff {tally : Tally} :
    words.foldlM add? {} = some tally ↔
      ∃ base : Option String, bases words = base.toList ∧
        (∀ word ∈ base, word ∈ baseKeywords) ∧ tally = ofWords words base := by
  induction words using List.reverseRecOn generalizing tally with
  | nil =>
    constructor
    · rintro ⟨⟩
      exact ⟨none, rfl, by simp, rfl⟩
    · rintro ⟨base, hbase, -, rfl⟩
      cases base with
      | none => rfl
      | some word => cases hbase
  | append_singleton words word ih =>
    rw [List.foldlM_append, Option.bind_eq_bind, Option.bind_eq_some_iff]
    simp only [List.foldlM_cons, List.foldlM_nil, bind_pure, ih]
    by_cases hmodifier : word ∈ modifiers
    · rw [bases_concat_of_mem hmodifier]
      constructor
      · rintro ⟨_, ⟨base, hbase, hkeyword, rfl⟩, hadd⟩
        rw [add?_of_mem hmodifier] at hadd
        exact ⟨base, hbase, hkeyword, (Option.some.inj hadd).symm⟩
      · rintro ⟨base, hbase, hkeyword, rfl⟩
        exact ⟨_, ⟨base, hbase, hkeyword, rfl⟩, add?_of_mem hmodifier⟩
    · rw [bases_concat_of_not_mem hmodifier]
      constructor
      · rintro ⟨_, ⟨base, hbase, -, rfl⟩, hadd⟩
        rw [add?_of_not_mem hmodifier, Option.ite_none_right_eq_some] at hadd
        obtain ⟨⟨rfl, hword⟩, hadd⟩ := hadd
        exact ⟨some word, by rw [hbase]; rfl, by simpa using hword, (Option.some.inj hadd).symm⟩
      · rintro ⟨base, hbase, hkeyword, rfl⟩
        have hlast : bases words = [] ∧ base = some word := by
          cases base with
          | none => simp at hbase
          | some last =>
            have happend : bases words ++ [word] = [] ++ [last] := hbase
            obtain ⟨hnone, hlast⟩ := List.append_inj' happend rfl
            exact ⟨hnone, congrArg some (List.singleton_inj.mp hlast).symm⟩
        obtain ⟨hnone, rfl⟩ := hlast
        refine ⟨_, ⟨none, hnone, by simp, rfl⟩, ?_⟩
        rw [add?_of_not_mem hmodifier, if_pos ⟨rfl, hkeyword word rfl⟩]

-- Each word leaves a trace in what is read.
theorem ofWords_eq_empty_iff (hbase : bases words = base.toList) :
    ofWords words base = {} ↔ words = [] := by
  constructor
  · intro hempty
    simp only [ofWords, Tally.mk.injEq, List.count_eq_zero, List.contains_eq_mem,
      decide_eq_false_iff_not] at hempty
    obtain ⟨rfl, hlong, hshort, hsigned, hunsigned⟩ := hempty
    refine List.eq_nil_iff_forall_not_mem.mpr fun word hword => ?_
    by_cases hmodifier : word ∈ modifiers
    · simp only [modifiers, List.mem_cons, List.not_mem_nil, or_false] at hmodifier
      rcases hmodifier with rfl | rfl | rfl | rfl <;> contradiction
    · have hmem := mem_bases_iff.mpr ⟨hword, hmodifier⟩
      rw [hbase] at hmem
      cases hmem
  · rintro rfl
    cases base with
    | none => rfl
    | some word => cases hbase

end Tally

theorem canonical?_eq_some_iff {words : List String} {s : String} :
    canonical? words = some s ↔
      words ≠ [] ∧ ∃ base : Option String, bases words = base.toList ∧
        (∀ word ∈ base, word ∈ baseKeywords) ∧
        spelling base (words.count "long") (words.contains "short") (words.contains "signed")
          (words.contains "unsigned") = s := by
  unfold canonical?
  rw [Option.bind_eq_bind, Option.bind_eq_some_iff]
  simp only [Tally.foldlM_add?_eq_some_iff, Option.ite_none_left_eq_some, Option.some.injEq]
  constructor
  · rintro ⟨_, ⟨base, hbase, hkeyword, rfl⟩, hread, hs⟩
    exact ⟨mt (Tally.ofWords_eq_empty_iff hbase).mpr hread, base, hbase, hkeyword, hs⟩
  · rintro ⟨hwords, base, hbase, hkeyword, hs⟩
    exact ⟨_, ⟨base, hbase, hkeyword, rfl⟩, mt (Tally.ofWords_eq_empty_iff hbase).mp hwords, hs⟩

end WidthCheck.Builtin
