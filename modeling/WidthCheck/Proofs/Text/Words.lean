import WidthCheck.Text.Blank

/-!
# Pieces and words

Cutting a text at some of its characters loses only those characters. Words are the pieces between
blanks, so a text of words with blanks between them has just these words.
-/

namespace WidthCheck.Text

variable {α : Type} {p : α → Bool}

/-! ## Pieces -/

theorem splitWhere_cons_of_false {c : α} (h : p c = false) (cs : List α) :
    splitWhere p (c :: cs) = (splitWhere p cs).modifyHead (c :: ·) := by
  change (if p c then _ else _) = _
  rw [if_neg (by simp [h])]
  cases hpieces : splitWhere p cs with
  | nil => exact absurd hpieces (splitWhere_ne_nil p cs)
  | cons piece rest => simp only [splitWhere] at hpieces; simp [hpieces]

theorem eq_false_of_mem_splitWhere {cs piece : List α} (h : piece ∈ splitWhere p cs) :
    ∀ c ∈ piece, p c = false := by
  induction cs generalizing piece with
  | nil => simp_all
  | cons c cs ih =>
    cases hc : p c with
    | true =>
      rw [splitWhere_cons_of_true hc] at h
      rcases List.mem_cons.mp h with rfl | hrest
      · simp
      · exact ih hrest
    | false =>
      rw [splitWhere_cons_of_false hc] at h
      cases hpieces : splitWhere p cs with
      | nil => exact absurd hpieces (splitWhere_ne_nil p cs)
      | cons first rest =>
        rw [hpieces] at ih h
        rcases List.mem_cons.mp h with rfl | hrest
        · exact List.forall_mem_cons.mpr ⟨hc, ih List.mem_cons_self⟩
        · exact ih (List.mem_cons_of_mem first hrest)

theorem splitWhere_eq_singleton {piece : List α} (h : ∀ c ∈ piece, p c = false) :
    splitWhere p piece = [piece] := by
  induction piece with
  | nil => rfl
  | cons c cs ih =>
    obtain ⟨hc, hcs⟩ := List.forall_mem_cons.mp h
    rw [splitWhere_cons_of_false hc, ih hcs]
    rfl

theorem splitWhere_append_cons {piece : List α} {cut : α} (h : ∀ c ∈ piece, p c = false)
    (hcut : p cut = true) (cs : List α) :
    splitWhere p (piece ++ cut :: cs) = piece :: splitWhere p cs := by
  induction piece with
  | nil => exact splitWhere_cons_of_true hcut cs
  | cons c rest ih =>
    obtain ⟨hc, hrest⟩ := List.forall_mem_cons.mp h
    rw [List.cons_append, splitWhere_cons_of_false hc, ih hrest]
    rfl

-- Around a cut, the pieces are those of the two sides.
theorem splitWhere_append_cut {cut : α} (hcut : p cut = true) (front cs : List α) :
    splitWhere p (front ++ cut :: cs) = splitWhere p front ++ splitWhere p cs := by
  induction front with
  | nil => exact splitWhere_cons_of_true hcut cs
  | cons c front ih =>
    cases hc : p c with
    | true =>
      rw [List.cons_append, splitWhere_cons_of_true hc, splitWhere_cons_of_true hc, ih,
        List.cons_append]
    | false =>
      rw [List.cons_append, splitWhere_cons_of_false hc, splitWhere_cons_of_false hc, ih]
      cases hpieces : splitWhere p front with
      | nil => exact absurd hpieces (splitWhere_ne_nil p front)
      | cons piece rest => rfl

-- What has no cuts goes to the last piece of what it is put after.
theorem splitWhere_append_of_false {rest : List α} (h : ∀ c ∈ rest, p c = false)
    (front : List α) :
    ∃ firsts last, splitWhere p front = firsts ++ [last] ∧
      splitWhere p (front ++ rest) = firsts ++ [last ++ rest] := by
  induction front with
  | nil => exact ⟨[], [], rfl, splitWhere_eq_singleton h⟩
  | cons c front ih =>
    obtain ⟨firsts, last, hfront, happend⟩ := ih
    cases hc : p c with
    | true =>
      rw [List.cons_append, splitWhere_cons_of_true hc, splitWhere_cons_of_true hc, hfront, happend]
      exact ⟨[] :: firsts, last, rfl, rfl⟩
    | false =>
      rw [List.cons_append, splitWhere_cons_of_false hc, splitWhere_cons_of_false hc, hfront,
        happend]
      cases firsts with
      | nil => exact ⟨[], c :: last, rfl, rfl⟩
      | cons first firsts => exact ⟨(c :: first) :: firsts, last, rfl, rfl⟩

theorem eq_nil_of_splitWhere {cs : List α} (h : splitWhere p cs = [[]]) : cs = [] := by
  cases cs with
  | nil => rfl
  | cons c cs =>
    cases hpieces : splitWhere p cs with
    | nil => exact absurd hpieces (splitWhere_ne_nil p cs)
    | cons piece rest =>
      cases hc : p c with
      | true => rw [splitWhere_cons_of_true hc, hpieces] at h; cases h
      | false => rw [splitWhere_cons_of_false hc, hpieces] at h; cases h

-- What is not cut at is kept in one of the pieces.
theorem exists_mem_splitWhere {c : α} {cs : List α} (hmem : c ∈ cs) (hc : p c = false) :
    ∃ piece ∈ splitWhere p cs, c ∈ piece := by
  induction cs with
  | nil => cases hmem
  | cons b cs ih =>
    cases hb : p b with
    | true =>
      rw [splitWhere_cons_of_true hb]
      have hne : c ≠ b := fun h => by rw [h, hb] at hc; cases hc
      obtain ⟨piece, hpiece, hin⟩ := ih ((List.mem_cons.mp hmem).resolve_left hne)
      exact ⟨piece, List.mem_cons_of_mem [] hpiece, hin⟩
    | false =>
      rw [splitWhere_cons_of_false hb]
      cases hpieces : splitWhere p cs with
      | nil => exact absurd hpieces (splitWhere_ne_nil p cs)
      | cons first rest =>
        rw [List.modifyHead_cons]
        rcases List.mem_cons.mp hmem with rfl | hrest
        · exact ⟨c :: first, List.mem_cons_self, List.mem_cons_self⟩
        · obtain ⟨piece, hpiece, hin⟩ := ih hrest
          rw [hpieces] at hpiece
          rcases List.mem_cons.mp hpiece with rfl | hafter
          · exact ⟨b :: piece, List.mem_cons_self, List.mem_cons_of_mem b hin⟩
          · exact ⟨piece, List.mem_cons_of_mem _ hafter, hin⟩

/-! ## Characters of a text -/

-- Goes through the characters of the text, and not through all there are.
instance (priority := 2000) decidableForallMem (cs : List Char) (q : Char → Prop)
    [DecidablePred q] : Decidable (∀ c ∈ cs, q c) :=
  List.decidableBAll q cs

/-! ## Words -/

theorem words_append_of_blank {gap : List Char} (h : ∀ c ∈ gap, isBlank c = true)
    (cs : List Char) : words (gap ++ cs) = words cs := by
  induction gap with
  | nil => rfl
  | cons c gap ih =>
    obtain ⟨hc, hgap⟩ := List.forall_mem_cons.mp h
    rw [← ih hgap, List.cons_append, words, splitWhere_cons_of_true hc,
      List.filter_cons_of_neg (by simp), ← words]

theorem words_of_plain {word : List Char} (h : ∀ c ∈ word, isBlank c = false) (hne : word ≠ []) :
    words word = [word] := by
  rw [words, splitWhere_eq_singleton h, List.filter_cons_of_pos (by simpa using hne)]
  rfl

theorem words_append_of_plain {word gap : List Char} (h : ∀ c ∈ word, isBlank c = false)
    (hne : word ≠ []) (hgap : ∀ c ∈ gap, isBlank c = true) (hsome : gap ≠ []) (cs : List Char) :
    words (word ++ (gap ++ cs)) = word :: words cs := by
  cases gap with
  | nil => exact absurd rfl hsome
  | cons c gap =>
    obtain ⟨hc, hrest⟩ := List.forall_mem_cons.mp hgap
    rw [List.cons_append, words, splitWhere_append_cons h hc,
      List.filter_cons_of_pos (by simpa using hne), ← words, words_append_of_blank hrest]

theorem exists_mem_words {c : Char} {cs : List Char} (hmem : c ∈ cs) (hc : isBlank c = false) :
    ∃ word ∈ words cs, c ∈ word := by
  obtain ⟨piece, hpiece, hin⟩ := exists_mem_splitWhere hmem hc
  exact ⟨piece, List.mem_filter.mpr ⟨hpiece, by simpa using List.ne_nil_of_mem hin⟩, hin⟩

end WidthCheck.Text
