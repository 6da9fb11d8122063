import WidthCheck.Proofs.CType.Normal

/-!
# Canonical spellings

The canonical spelling of type keywords depends on how often each keyword occurs and not on the
order. A canonical spelling is its own, and the keywords that spell `long` and `unsigned long` are
known exactly.
-/

namespace WidthCheck.Builtin

theorem mem_keywords_of_canonical? {words : List String} {s : String}
    (h : canonical? words = some s) : ∀ word ∈ words, word ∈ keywords := by
  obtain ⟨-, base, hbases, hkeyword, -⟩ := canonical?_eq_some_iff.mp h
  intro word hword
  by_cases hmodifier : word ∈ modifiers
  · exact List.mem_append_left _ hmodifier
  · have hbase : word ∈ base.toList := hbases ▸ mem_bases_iff.mpr ⟨hword, hmodifier⟩
    exact List.mem_append_right _ (hkeyword word (by simpa using hbase))

/-! ## The order of the words -/

-- Two lists of at most one item with the same items are the same.
theorem eq_toList_of_perm {l : List String} {base : Option String} (h : l.Perm base.toList) :
    l = base.toList := by
  cases base with
  | none => exact List.perm_nil.mp h
  | some word => exact List.perm_singleton.mp h

theorem canonical?_of_perm {words words' : List String} (h : words.Perm words') {s : String}
    (hs : canonical? words = some s) : canonical? words' = some s := by
  obtain ⟨hne, base, hbase, hkeyword, hspelling⟩ := canonical?_eq_some_iff.mp hs
  have hbases : (bases words').Perm base.toList := hbase ▸ (h.filter _).symm
  refine canonical?_eq_some_iff.mpr ⟨?_, base, eq_toList_of_perm hbases, hkeyword, ?_⟩
  · rintro rfl
    exact hne h.eq_nil
  · rw [← h.count_eq, ← h.contains_eq, ← h.contains_eq, ← h.contains_eq]
    exact hspelling

/-! ## The spellings of `long` -/

/-- The spelling of `long`, or of its unsigned counterpart. -/
def longSpelling (unsigned : Bool) : String := if unsigned then "unsigned long" else "long"

theorem integerSpelling_eq_long_iff {longs : Nat} {short unsigned isUnsigned : Bool} :
    integerSpelling longs short unsigned = longSpelling isUnsigned ↔
      longs = 1 ∧ short = false ∧ unsigned = isUnsigned := by
  rcases longs with _ | _ | n
  · revert short unsigned isUnsigned
    decide
  · revert short unsigned isUnsigned
    decide
  · cases short <;> cases unsigned <;> cases isUnsigned <;>
      simp [integerSpelling, longSpelling]

theorem spelling_ne_long {word : String} (hword : word ∈ baseKeywords) (hint : word ≠ "int")
    (longs : Nat) (short signed unsigned isUnsigned : Bool) :
    spelling (some word) longs short signed unsigned ≠ longSpelling isUnsigned := by
  have hself : ∀ word ∈ baseKeywords, ∀ u, word ≠ longSpelling u := by decide
  unfold spelling
  dsimp only
  rw [if_neg hint]
  split
  · revert signed unsigned isUnsigned; decide
  split
  · split <;> revert isUnsigned <;> decide
  split
  · revert unsigned isUnsigned; decide
  · exact hself word hword isUnsigned

theorem spelling_eq_long_iff {base : Option String} (hbase : ∀ word ∈ base, word ∈ baseKeywords)
    {longs : Nat} {short signed unsigned isUnsigned : Bool} :
    spelling base longs short signed unsigned = longSpelling isUnsigned ↔
      (∀ word ∈ base, word = "int") ∧ longs = 1 ∧ short = false ∧ unsigned = isUnsigned := by
  cases base with
  | none => simpa [spelling] using integerSpelling_eq_long_iff
  | some word =>
    by_cases hint : word = "int"
    · simpa [spelling, hint] using integerSpelling_eq_long_iff
    · have hne := spelling_ne_long (hbase word rfl) hint longs short signed unsigned isUnsigned
      simp [hne, hint]

/-- One `long` and no `short`, at most one `int`, and beside them any number of `signed`; there are
words `unsigned` exactly if the type is unsigned. -/
structure WritesLong (unsigned : Bool) (words : List String) : Prop where
  long : words.count "long" = 1
  short : "short" ∉ words
  unsigned : "unsigned" ∈ words ↔ unsigned = true
  int : words.count "int" ≤ 1
  rest : ∀ word ∈ words, word ∈ ["long", "unsigned", "int", "signed"]

theorem count_int_bases (words : List String) : (bases words).count "int" = words.count "int" :=
  List.count_filter (by decide)

-- Words beside the modifiers are all `int`, so there is one of them at most.
theorem WritesLong.bases_eq {unsigned : Bool} {words : List String}
    (h : WritesLong unsigned words) :
    ∃ base : Option String, bases words = base.toList ∧ ∀ word ∈ base, word = "int" := by
  have hint : ∀ word ∈ bases words, word = "int" := by
    intro word hword
    obtain ⟨hmem, hmodifier⟩ := mem_bases_iff.mp hword
    have hall : ∀ word ∈ ["long", "unsigned", "int", "signed"],
        word ∉ modifiers → word = "int" := by decide
    exact hall word (h.rest word hmem) hmodifier
  have hcount := count_int_bases words ▸ h.int
  cases hbases : bases words with
  | nil => exact ⟨none, rfl, by simp⟩
  | cons word rest =>
    rw [hbases] at hint hcount
    obtain rfl := hint word List.mem_cons_self
    cases rest with
    | nil => exact ⟨some "int", rfl, by simp⟩
    | cons next rest =>
      obtain rfl := hint next (List.mem_cons_of_mem _ List.mem_cons_self)
      simp at hcount

theorem canonical?_eq_long_iff (unsigned : Bool) (words : List String) :
    canonical? words = some (longSpelling unsigned) ↔ WritesLong unsigned words := by
  rw [canonical?_eq_some_iff]
  constructor
  · rintro ⟨-, base, hbases, hkeyword, hspelling⟩
    obtain ⟨hint, hlong, hshort, hunsigned⟩ := (spelling_eq_long_iff hkeyword).mp hspelling
    have hcount := count_int_bases words
    have hshort' : "short" ∉ words := by simpa using hshort
    refine ⟨hlong, hshort', by rw [← hunsigned, List.contains_iff_mem], ?_, fun word hword => ?_⟩
    · rw [← hcount, hbases]
      cases base with
      | none => simp
      | some word => exact List.count_le_length
    · by_cases hmodifier : word ∈ modifiers
      · have hall : ∀ word ∈ modifiers, word ≠ "short" →
            word ∈ ["long", "unsigned", "int", "signed"] := by decide
        exact hall word hmodifier fun h => hshort' (h ▸ hword)
      · have hbase : word ∈ base.toList := hbases ▸ mem_bases_iff.mpr ⟨hword, hmodifier⟩
        rw [hint word (by simpa using hbase)]
        decide
  · intro h
    obtain ⟨base, hbases, hint⟩ := h.bases_eq
    have hkeyword : ∀ word ∈ base, word ∈ baseKeywords := by
      intro word hword
      rw [hint word hword]
      decide
    refine ⟨?_, base, hbases, hkeyword, (spelling_eq_long_iff hkeyword).mpr ⟨hint, h.long, ?_, ?_⟩⟩
    · rintro rfl
      exact absurd h.long (by decide)
    · simpa using h.short
    · rw [Bool.eq_iff_iff, List.contains_iff_mem]
      exact h.unsigned

/-- The canonical spelling of words does not depend on their order, has itself as canonical
spelling, and is `long` or `unsigned long` exactly for the words that write this type. -/
theorem canonical?_exact (words : List String) :
    (∀ words', words.Perm words' → canonical? words = canonical? words') ∧
    (∀ s, canonical? words = some s → canonical? (wordsOf s) = some s) ∧
    (canonical? words = some "long" ↔ WritesLong false words) ∧
    (canonical? words = some "unsigned long" ↔ WritesLong true words) := by
  refine ⟨fun words' h => Option.ext fun s => ?_, fun s hs => isCanonical_of_canonical? hs, ?_, ?_⟩
  · exact ⟨canonical?_of_perm h, canonical?_of_perm h.symm⟩
  · exact canonical?_eq_long_iff false words
  · exact canonical?_eq_long_iff true words

theorem scatteredLong_exact :
    canonical? ["int", "unsigned", "signed", "long", "unsigned"] = some "unsigned long" ∧
      canonical? ["unsigned", "long", "unsigned", "signed", "int"] = some "unsigned long" ∧
      canonical? ["unsigned", "long"] = some "unsigned long" := by
  obtain ⟨hperm, hself, -, hlong⟩ :=
    canonical?_exact ["int", "unsigned", "signed", "long", "unsigned"]
  have hspelling := hlong.mpr ⟨by decide, by decide, by decide, by decide, by decide⟩
  refine ⟨hspelling, ?_, ?_⟩
  · rw [← hspelling]
    exact (hperm _ (by decide)).symm
  · exact hself "unsigned long" hspelling

end WidthCheck.Builtin
