import WidthCheck.Linter.Basic
import WidthCheck.Proofs.Path
import WidthCheck.Proofs.Text.Trim

/-!
# Excluding a directory

A pattern `**/d/**` is looked for in two ways, as a glob pattern and as the text `/d/` in the path
with a slash in front. Both find the directories of the path and nothing else: a name that only
contains `d`, and the name of the file itself, are not excluded.
-/

namespace WidthCheck

/-! ## Glob patterns of plain characters -/

namespace Glob

/-- Whether a character of a pattern stands for itself where no set is open. -/
def isPlain (c : Char) : Bool := !(c == '*' || c == '?' || c == '[')

theorem readTokens_cons_of_isPlain {c : Char} (h : isPlain c = true) (before rest : List Char) :
    readTokens before (c :: rest) = (readTokens (c :: before) rest).map (.char c :: ·) := by
  have hread : readToken before c rest = .ok (.char c, 0) := by
    simp only [isPlain, Bool.not_eq_true', Bool.or_eq_false_iff, beq_eq_false_iff_ne] at h
    obtain ⟨⟨hstar, hone⟩, hset⟩ := h
    rw [readToken, if_neg hone, if_neg hstar, if_neg hset]
  rw [readTokens, hread]
  rfl

theorem readTokens_append_of_isPlain {cs : List Char} (h : ∀ c ∈ cs, isPlain c = true)
    (before rest : List Char) :
    readTokens before (cs ++ rest) =
      (readTokens (cs.reverse ++ before) rest).map (cs.map .char ++ ·) := by
  induction cs generalizing before with
  | nil =>
    show readTokens before rest = (readTokens before rest).map id
    cases readTokens before rest <;> rfl
  | cons c cs ih =>
    obtain ⟨hc, hcs⟩ := List.forall_mem_cons.mp h
    rw [List.cons_append, readTokens_cons_of_isPlain hc, ih hcs, List.reverse_cons,
      List.append_assoc, List.singleton_append]
    cases readTokens (cs.reverse ++ c :: before) rest <;> rfl

theorem tokensAccept_chars {cs text : List Char} {rest : List GlobToken} :
    tokensAccept (cs.map .char ++ rest) text = true ↔
      ∃ after, text = cs ++ after ∧ tokensAccept rest after = true := by
  induction cs generalizing text with
  | nil => simp
  | cons c cs ih =>
    cases text with
    | nil => simp [tokensAccept]
    | cons d text =>
      rw [List.map_cons, List.cons_append, tokensAccept]
      · rw [Bool.and_eq_true, ih]
        show (c == d) = true ∧ _ ↔ _
        rw [beq_iff_eq]
        constructor
        · rintro ⟨rfl, after, rfl, hafter⟩
          exact ⟨after, rfl, hafter⟩
        · rintro ⟨after, heq, hafter⟩
          obtain ⟨rfl, rfl⟩ := List.cons.inj heq
          exact ⟨rfl, after, rfl, hafter⟩
      · intro h
        cases h
      · intro h
        cases h

theorem mem_afterSlashes {text rest : List Char} (h : rest ∈ afterSlashes text) :
    rest = [] ∨ ∃ front, text = front ++ '/' :: rest := by
  induction text with
  | nil => exact .inl (List.mem_singleton.mp h)
  | cons c text ih =>
    rw [afterSlashes] at h
    by_cases hfirst : c = '/' ∧ rest = text
    · obtain ⟨rfl, rfl⟩ := hfirst
      exact .inr ⟨[], rfl⟩
    · have hlater : rest ∈ afterSlashes text := by
        split at h
        · rename_i hc
          exact (List.mem_cons.mp h).resolve_left fun heq => hfirst ⟨hc, heq⟩
        · exact h
      rcases ih hlater with rfl | ⟨front, rfl⟩
      · exact .inl rfl
      · exact .inr ⟨c :: front, rfl⟩

end Glob

/-! ## The text of a path -/

namespace Path

theorem isSuffix_joinPieces_append (front : List (List Char)) {rest : List (List Char)}
    (h : rest ≠ []) : '/' :: joinPieces rest <:+ '/' :: joinPieces (front ++ rest) := by
  induction front with
  | nil => exact List.suffix_refl _
  | cons piece front ih =>
    rw [List.cons_append, joinPieces_cons (List.append_ne_nil_of_right_ne_nil _ h)]
    exact ih.trans (List.suffix_append ('/' :: piece) _)

/-- Between slashes stand just the names of directories. The last name has no slash after it. -/
theorem infix_joinPieces_iff {d : List Char} (hd : ∀ c ∈ d, (c == '/') = false)
    {names : List (List Char)} (hnames : AreClean names) :
    '/' :: (d ++ ['/']) <:+: '/' :: joinPieces names ↔ d ∈ names.dropLast := by
  constructor
  · rintro ⟨front, back, heq⟩
    -- The two slashes are cuts of the path, so `d` is one of its pieces and not the last one.
    have hcut : pieces front ++ d :: pieces back = [] :: pieces (joinPieces names) := by
      have hslashes : pieces (front ++ '/' :: (d ++ '/' :: back)) =
          pieces front ++ d :: pieces back := by
        rw [pieces_append_slash, pieces_append_slash, pieces_of_clean hd]
        rfl
      have hfirst : pieces ('/' :: joinPieces names) = [] :: pieces (joinPieces names) :=
        pieces_append_slash [] _
      rw [← hslashes, ← hfirst, ← heq]
      simp
    have hmem : d ∈ (pieces (joinPieces names)).dropLast := by
      cases hfront : pieces front with
      | nil => exact absurd hfront (pieces_ne_nil _)
      | cons first rest =>
        rw [hfront, List.cons_append] at hcut
        rw [← (List.cons.inj hcut).2, List.dropLast_append_of_ne_nil (List.cons_ne_nil _ _),
          List.dropLast_cons_of_ne_nil (pieces_ne_nil _)]
        exact List.mem_append_right _ List.mem_cons_self
    cases names with
    | nil => cases hmem
    | cons name rest => rwa [pieces_joinPieces hnames (List.cons_ne_nil _ _)] at hmem
  · intro hmem
    have hne : names ≠ [] := by
      rintro rfl
      cases hmem
    obtain ⟨front, rest, hsplit⟩ := List.append_of_mem hmem
    have hsplit : names = front ++ d :: (rest ++ [names.getLast hne]) := by
      rw [← List.cons_append, ← List.append_assoc, ← hsplit, List.dropLast_append_getLast]
    rw [hsplit]
    apply List.IsInfix.trans _ (isSuffix_joinPieces_append front (List.cons_ne_nil _ _)).isInfix
    apply List.IsPrefix.isInfix
    rw [joinPieces_cons (List.append_ne_nil_of_right_ne_nil _ (List.cons_ne_nil _ _))]
    exact ⟨joinPieces (rest ++ [names.getLast hne]), by simp⟩

end Path

/-! ## The pattern of a directory -/

/-- A name that a pattern can have as a component of its own. -/
structure IsDirectoryName (d : List Char) : Prop where
  ne_nil : d ≠ []
  no_slash : ∀ c ∈ d, (c == '/') = false
  isPlain : ∀ c ∈ d, Glob.isPlain c = true

/-- The pattern of all that lies below directories of a name: `**/d/**`. -/
def directoryPattern (d : List Char) : String :=
  String.ofList ('*' :: '*' :: '/' :: (d ++ ['/', '*', '*']))

/-- What that pattern is read as. -/
def directoryGlob (d : List Char) : Glob :=
  ⟨.components :: ((d ++ ['/']).map .char ++ [.components])⟩

namespace IsDirectoryName

variable {d : List Char}

theorem ne_star (h : IsDirectoryName d) : ∀ c ∈ d, c ≠ '*' := by
  intro c hc hstar
  have hplain := h.isPlain c hc
  rw [hstar] at hplain
  cases hplain

theorem isPlain_append_slash (h : IsDirectoryName d) :
    ∀ c ∈ d ++ ['/'], Glob.isPlain c = true := by
  intro c hc
  rcases List.mem_append.mp hc with hc | hc
  · exact h.isPlain c hc
  · rw [List.mem_singleton.mp hc]
    rfl

theorem glob_parse (h : IsDirectoryName d) :
    Glob.parse (directoryPattern d) = .ok (directoryGlob d) := by
  have hstart : Glob.readTokens [] ('*' :: '*' :: '/' :: (d ++ ['/', '*', '*'])) =
      (Glob.readTokens ['/', '*', '*'] (d ++ ['/', '*', '*'])).map (.components :: ·) := by
    rw [Glob.readTokens]
    rfl
  have hend : Glob.readTokens ((d ++ ['/']).reverse ++ ['/', '*', '*']) ['*', '*'] =
      .ok [.components] := by
    rw [List.reverse_append, Glob.readTokens]
    show (Glob.readTokens _ []).map _ = _
    rw [Glob.readTokens]
    rfl
  have hmiddle :=
    Glob.readTokens_append_of_isPlain h.isPlain_append_slash ['/', '*', '*'] ['*', '*']
  rw [hend, List.append_assoc] at hmiddle
  rw [Glob.parse, directoryPattern, String.toList_ofList, hstart]
  exact congrArg (fun tokens => (Except.map (.components :: ·) tokens).map Glob.mk) hmiddle

end IsDirectoryName

theorem infix_of_directoryGlob_accepts {d : List Char} {text : String}
    (haccepts : (directoryGlob d).accepts text = true) :
    '/' :: (d ++ ['/']) <:+: '/' :: text.toList := by
  rw [Glob.accepts_eq, directoryGlob, Glob.tokensAccept, List.any_eq_true] at haccepts
  obtain ⟨rest, hrest, haccepts⟩ := haccepts
  obtain ⟨after, rfl, -⟩ := Glob.tokensAccept_chars.mp haccepts
  rcases List.mem_cons.mp hrest with heq | hslash
  · rw [← heq]
    exact ⟨[], after, rfl⟩
  · rcases Glob.mem_afterSlashes hslash with hnil | ⟨front, hfront⟩
    · simp at hnil
    · rw [hfront]
      exact ⟨'/' :: front, after, by simp⟩

theorem Text.erasePairs_append_of_ne {a : Char} {cs : List Char} (h : ∀ c ∈ cs, c ≠ a)
    (b : Char) (rest : List Char) :
    erasePairs a b (cs ++ rest) = cs ++ erasePairs a b rest := by
  induction cs with
  | nil => rfl
  | cons c cs ih =>
    obtain ⟨hc, hcs⟩ := List.forall_mem_cons.mp h
    rw [List.cons_append, List.cons_append, ← ih hcs]
    cases cs ++ rest with
    | nil => rfl
    | cons next cs => rw [erasePairs, if_neg (by simp [hc])]

namespace Exclusion

variable {d : List Char} {names : List (List Char)}

theorem isLong_cons (c : Char) {cs : List Char} (h : cs ≠ []) : isLong (c :: cs) = true := by
  cases cs with
  | nil => exact absurd rfl h
  | cons next cs =>
    have hfirst := c.utf8Size_pos
    have hnext := next.utf8Size_pos
    simp [isLong, String.ofList_cons]
    omega

theorem needle_directoryPattern (h : IsDirectoryName d) (glob : Glob) :
    needle ⟨directoryPattern d, glob⟩ = '/' :: (d ++ ['/']) := by
  have hclean : ∀ c ∈ '/' :: (d ++ ['/']), c ≠ '*' := by
    have hends : '/' ≠ '*' := by decide
    simp only [List.mem_cons, List.mem_append, List.not_mem_nil, or_false]
    rintro c (rfl | hc | rfl)
    · exact hends
    · exact h.ne_star c hc
    · exact hends
  have herase := Text.erasePairs_append_of_ne hclean '*' ['*', '*']
  have hpattern : (directoryPattern d).toList =
      '*' :: '*' :: ('/' :: (d ++ ['/']) ++ ['*', '*']) := by
    simp [directoryPattern]
  rw [needle, hpattern, Text.erasePairs, if_pos ⟨rfl, rfl⟩, herase]
  simp [Text.erasePairs]

theorem excludes_iff (h : IsDirectoryName d) (hnames : Path.AreNames names) {glob : Glob}
    (hglob : glob.accepts (Path.ofNames names).text = true → d ∈ names.dropLast) :
    excludes ⟨directoryPattern d, glob⟩ (Path.ofNames names) = true ↔ d ∈ names.dropLast := by
  rw [excludes, needle_directoryPattern h, isLong_cons _ (by simp), Bool.true_and, Bool.or_eq_true,
    Text.contains_iff, Path.toList_ofNames, Path.infix_joinPieces_iff h.no_slash hnames.areClean]
  exact or_iff_right_of_imp hglob

theorem mem_dropLast_of_directoryGlob_accepts (h : IsDirectoryName d)
    (hnames : Path.AreNames names)
    (haccepts : (directoryGlob d).accepts (Path.ofNames names).text = true) :
    d ∈ names.dropLast := by
  rw [← Path.infix_joinPieces_iff h.no_slash hnames.areClean, ← Path.toList_ofNames]
  exact infix_of_directoryGlob_accepts haccepts

theorem parseAll_directoryPattern (h : IsDirectoryName d) :
    parseAll [directoryPattern d] = .ok [⟨directoryPattern d, directoryGlob d⟩] := by
  rw [parseAll, if_neg (List.cons_ne_nil _ _), List.mapM_cons, List.mapM_nil, parse, h.glob_parse]
  rfl

end Exclusion

namespace Linter

theorem isExcluded_join {linter : Linter} {e : Exclusion} (honly : linter.exclusions = [e])
    {names : List (List Char)} (hnames : Path.AreNames names) :
    linter.isExcluded (linter.base.join (Path.ofNames names)) = e.excludes (Path.ofNames names) := by
  rw [isExcluded, honly, Path.shownIn_join hnames, List.any_cons, List.any_nil, Bool.or_false]

theorem isExcluded_join_iff {d : List Char} (h : IsDirectoryName d) {linter : Linter} {glob : Glob}
    (honly : linter.exclusions = [⟨directoryPattern d, glob⟩]) {names : List (List Char)}
    (hnames : Path.AreNames names)
    (hglob : glob.accepts (Path.ofNames names).text = true → d ∈ names.dropLast) :
    linter.isExcluded (linter.base.join (Path.ofNames names)) = true ↔ d ∈ names.dropLast := by
  rw [isExcluded_join honly hnames, Exclusion.excludes_iff h hnames hglob]

theorem ofRequest_of_parseAll {request : LintRequest} {exclusions : List Exclusion}
    (hparse : Exclusion.parseAll (request.excludes ++ request.config.analyzer.exclude) =
      .ok exclusions) (isFile : Path → Bool) (cwd : Path) :
    ∃ linter, ofRequest isFile cwd request = .ok linter ∧ linter.exclusions = exclusions := by
  unfold ofRequest
  rw [hparse]
  exact ⟨_, rfl, rfl⟩

/-- With `**/d/**` as its only pattern, a linter leaves out what lies below a directory `d` under
the base, and nothing else: neither a file of that name nor names that only contain it. Of the glob
pattern this takes only that it finds no more than that, and the pattern as read does not. -/
theorem excluded_iff_below_directory {d : List Char} (h : IsDirectoryName d)
    {names : List (List Char)} (hnames : Path.AreNames names) :
    (∀ (linter : Linter) (glob : Glob), linter.exclusions = [⟨directoryPattern d, glob⟩] →
      (glob.accepts (Path.ofNames names).text = true → d ∈ names.dropLast) →
      (linter.isExcluded (linter.base.join (Path.ofNames names)) = true ↔ d ∈ names.dropLast)) ∧
    ∀ (isFile : Path → Bool) (cwd : Path) (request : LintRequest),
      request.excludes ++ request.config.analyzer.exclude = [directoryPattern d] →
      ∃ linter, ofRequest isFile cwd request = .ok linter ∧
        (linter.isExcluded (linter.base.join (Path.ofNames names)) = true ↔
          d ∈ names.dropLast) := by
  constructor
  · intro linter glob honly hglob
    exact isExcluded_join_iff h honly hnames hglob
  · intro isFile cwd request honly
    have hparse := Exclusion.parseAll_directoryPattern h
    rw [← honly] at hparse
    obtain ⟨linter, hlinter, hexclusions⟩ := ofRequest_of_parseAll hparse isFile cwd
    refine ⟨linter, hlinter, isExcluded_join_iff h hexclusions hnames ?_⟩
    exact Exclusion.mem_dropLast_of_directoryGlob_accepts h hnames

-- A directory whose name only contains this one, and a file of this name, are kept.
theorem excluded_below_build :
    (∃ linter, ofRequest (fun _ => false) ⟨"/work"⟩
        { rules := [], excludes := ["**/build/**"] } = .ok linter ∧
      linter.isExcluded (linter.base.join
        (Path.ofNames ["src".toList, "build".toList, "a.cpp".toList])) = true) ∧
    ∃ linter, ofRequest (fun _ => false) ⟨"/work"⟩
        { rules := [], excludes := ["**/build/**"] } = .ok linter ∧
      linter.isExcluded (linter.base.join
        (Path.ofNames ["builds".toList, "rebuild".toList, "build".toList])) = false := by
  have hdirectory : IsDirectoryName "build".toList := ⟨by decide, by decide, by decide⟩
  constructor
  · have hnames : Path.AreNames ["src".toList, "build".toList, "a.cpp".toList] :=
      ⟨by unfold Path.AreClean; decide, by decide⟩
    obtain ⟨linter, hlinter, hiff⟩ :=
      (excluded_iff_below_directory hdirectory hnames).2 (fun _ => false) ⟨"/work"⟩
        { rules := [], excludes := ["**/build/**"] } rfl
    exact ⟨linter, hlinter, hiff.mpr (by decide)⟩
  · have hnames : Path.AreNames ["builds".toList, "rebuild".toList, "build".toList] :=
      ⟨by unfold Path.AreClean; decide, by decide⟩
    obtain ⟨linter, hlinter, hiff⟩ :=
      (excluded_iff_below_directory hdirectory hnames).2 (fun _ => false) ⟨"/work"⟩
        { rules := [], excludes := ["**/build/**"] } rfl
    exact ⟨linter, hlinter, Bool.not_eq_true _ ▸ mt hiff.mp (by decide)⟩

end Linter

end WidthCheck
