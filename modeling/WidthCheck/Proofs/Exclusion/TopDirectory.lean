import WidthCheck.Proofs.Exclusion

/-!
# Excluding a directory of the base

A pattern `d/**` means, as a glob pattern, what lies below the directory `d` of the base. It is also
looked for as the text `d/`, without a slash in front, and that text stands at the end of every
directory whose name ends in `d`, at any depth. So more is left out than the directory.
-/

namespace WidthCheck

/-! ## Where a name with a slash after it stands in a path -/

namespace Path

/-- A name with a slash after it stands where the name of a directory ends in it. -/
theorem infix_joinPieces_suffix_iff {d : List Char} (hne : d ≠ [])
    (hd : ∀ c ∈ d, (c == '/') = false) {names : List (List Char)} (hnames : AreClean names) :
    d ++ ['/'] <:+: '/' :: joinPieces names ↔ ∃ name ∈ names.dropLast, d <:+ name := by
  constructor
  · rintro ⟨front, back, heq⟩
    obtain ⟨firsts, last, -, hlast⟩ := Text.splitWhere_append_of_false hd front
    rw [← pieces] at hlast
    -- The slash after `d` cuts the path behind a piece that ends in `d`.
    have hcut : firsts ++ (last ++ d) :: pieces back = [] :: pieces (joinPieces names) := by
      have hfirst : pieces ('/' :: joinPieces names) = [] :: pieces (joinPieces names) :=
        pieces_append_slash [] _
      have hslash : pieces (front ++ d ++ '/' :: back) = pieces (front ++ d) ++ pieces back :=
        pieces_append_slash _ _
      rw [← hfirst, ← heq, ← List.append_assoc, List.append_assoc (front ++ d),
        List.singleton_append, hslash, hlast, List.append_assoc, List.singleton_append]
    cases firsts with
    | nil =>
      -- The path starts with a slash, and `d` is not empty.
      obtain ⟨hempty, -⟩ := List.cons.inj hcut
      exact absurd (List.append_eq_nil_iff.mp hempty).2 hne
    | cons first firsts =>
      obtain ⟨-, hrest⟩ := List.cons.inj hcut
      have hmem : last ++ d ∈ (pieces (joinPieces names)).dropLast := by
        change firsts ++ (last ++ d) :: pieces back = _ at hrest
        rw [← hrest, List.dropLast_append_of_ne_nil (List.cons_ne_nil _ _),
          List.dropLast_cons_of_ne_nil (pieces_ne_nil _)]
        exact List.mem_append_right _ List.mem_cons_self
      cases names with
      | nil => cases hmem
      | cons name rest =>
        rw [pieces_joinPieces hnames (List.cons_ne_nil _ _)] at hmem
        exact ⟨last ++ d, hmem, List.suffix_append _ _⟩
  · rintro ⟨name, hmem, before, rfl⟩
    have hdirectory : ∀ c ∈ before ++ d, (c == '/') = false :=
      hnames _ (List.dropLast_subset _ hmem)
    have hinfix := (infix_joinPieces_iff hdirectory hnames).mpr hmem
    refine List.IsInfix.trans ?_ hinfix
    exact ⟨'/' :: before, [], by simp⟩

/-- A path starts with a name and a slash if that is its first name and not its last one. -/
theorem prefix_joinPieces_iff {d : List Char} (hd : ∀ c ∈ d, (c == '/') = false)
    {names : List (List Char)} (hnames : AreClean names) :
    d ++ ['/'] <+: joinPieces names ↔ names.head? = some d ∧ 2 ≤ names.length := by
  constructor
  · rintro ⟨back, heq⟩
    have hpieces : pieces (joinPieces names) = d :: pieces back := by
      rw [← heq, List.append_assoc, List.singleton_append, pieces_append_slash, pieces_of_clean hd,
        List.singleton_append]
    cases names with
    | nil => exact absurd (List.cons.inj hpieces).2.symm (pieces_ne_nil back)
    | cons name rest =>
      rw [pieces_joinPieces hnames (List.cons_ne_nil _ _)] at hpieces
      obtain ⟨rfl, rfl⟩ := List.cons.inj hpieces
      exact ⟨rfl, Nat.succ_le_succ (List.length_pos_iff.mpr (pieces_ne_nil back))⟩
  · rintro ⟨hhead, hlength⟩
    cases names with
    | nil => cases hhead
    | cons name rest =>
      obtain rfl := Option.some.inj hhead
      have hrest : rest ≠ [] := List.length_pos_iff.mp (Nat.le_of_succ_le_succ hlength)
      rw [joinPieces_cons hrest]
      exact ⟨joinPieces rest, by simp⟩

end Path

/-! ## The pattern of a directory of the base -/

/-- The pattern of all that lies below a directory of the base: `d/**`. -/
def topPattern (d : List Char) : String := String.ofList (d ++ ['/', '*', '*'])

/-- What that pattern is read as. -/
def topGlob (d : List Char) : Glob := ⟨(d ++ ['/']).map .char ++ [.components]⟩

variable {d : List Char} {names : List (List Char)}

theorem IsDirectoryName.glob_parse_topPattern (h : IsDirectoryName d) :
    Glob.parse (topPattern d) = .ok (topGlob d) := by
  have hend : Glob.readTokens ((d ++ ['/']).reverse ++ []) ['*', '*'] = .ok [.components] := by
    rw [List.reverse_append, Glob.readTokens]
    show (Glob.readTokens _ []).map _ = _
    rw [Glob.readTokens]
    rfl
  have hread := Glob.readTokens_append_of_isPlain h.isPlain_append_slash [] ['*', '*']
  rw [hend, List.append_assoc] at hread
  rw [Glob.parse, topPattern, String.toList_ofList]
  exact congrArg (Except.map Glob.mk) hread

-- The double star at the end takes anything.
theorem topGlob_accepts_iff (d : List Char) (text : String) :
    (topGlob d).accepts text = true ↔ d ++ ['/'] <+: text.toList := by
  have hend : ∀ after, Glob.tokensAccept [.components] after = true := by
    intro after
    rw [Glob.tokensAccept, List.any_eq_true]
    refine ⟨[], List.mem_cons_of_mem _ ?_, rfl⟩
    induction after with
    | nil => exact List.mem_singleton.mpr rfl
    | cons c after ih =>
      rw [Glob.afterSlashes]
      split
      · exact List.mem_cons_of_mem _ ih
      · exact ih
  rw [Glob.accepts_eq, topGlob, Glob.tokensAccept_chars]
  constructor
  · rintro ⟨after, htext, -⟩
    exact ⟨after, htext.symm⟩
  · rintro ⟨after, htext⟩
    exact ⟨after, htext.symm, hend after⟩

namespace Exclusion

theorem needle_topPattern (h : IsDirectoryName d) (glob : Glob) :
    needle ⟨topPattern d, glob⟩ = d ++ ['/'] := by
  have hclean : ∀ c ∈ d ++ ['/'], c ≠ '*' := by
    intro c hc
    rcases List.mem_append.mp hc with hc | hc
    · exact h.ne_star c hc
    · rw [List.mem_singleton.mp hc]
      decide
  have herase := Text.erasePairs_append_of_ne hclean '*' ['*', '*']
  have hpattern : (topPattern d).toList = d ++ ['/'] ++ ['*', '*'] := by
    simp [topPattern]
  rw [needle, hpattern, herase]
  simp [Text.erasePairs]

theorem isLong_append_slash (hne : d ≠ []) : isLong (d ++ ['/']) = true := by
  cases d with
  | nil => exact absurd rfl hne
  | cons c d => exact isLong_cons c (by simp)

/-- A path lies below the directory `d` of the base. -/
def IsBelowTop (d : List Char) (names : List (List Char)) : Prop :=
  names.head? = some d ∧ 2 ≤ names.length

theorem topGlob_accepts_ofNames_iff (h : IsDirectoryName d) (hnames : Path.AreNames names) :
    (topGlob d).accepts (Path.ofNames names).text = true ↔ IsBelowTop d names := by
  rw [topGlob_accepts_iff, Path.toList_ofNames,
    Path.prefix_joinPieces_iff h.no_slash hnames.areClean, IsBelowTop]

-- The directory of the base is one whose name ends in `d`.
theorem IsBelowTop.exists_suffix (h : IsBelowTop d names) : ∃ name ∈ names.dropLast, d <:+ name := by
  obtain ⟨hhead, hlength⟩ := h
  cases names with
  | nil => cases hhead
  | cons name rest =>
    obtain rfl := Option.some.inj hhead
    have hrest : rest ≠ [] := List.length_pos_iff.mp (Nat.le_of_succ_le_succ hlength)
    rw [List.dropLast_cons_of_ne_nil hrest]
    exact ⟨name, List.mem_cons_self, List.suffix_refl name⟩

theorem excludes_topPattern_iff (h : IsDirectoryName d) (hnames : Path.AreNames names) {glob : Glob}
    (hglob : glob.accepts (Path.ofNames names).text = true → IsBelowTop d names) :
    excludes ⟨topPattern d, glob⟩ (Path.ofNames names) = true ↔
      ∃ name ∈ names.dropLast, d <:+ name := by
  rw [excludes, needle_topPattern h, isLong_append_slash h.ne_nil, Bool.true_and, Bool.or_eq_true,
    Text.contains_iff, Path.toList_ofNames,
    Path.infix_joinPieces_suffix_iff h.ne_nil h.no_slash hnames.areClean]
  exact or_iff_right_of_imp fun haccepts => (hglob haccepts).exists_suffix

theorem parseAll_topPattern (h : IsDirectoryName d) :
    parseAll [topPattern d] = .ok [⟨topPattern d, topGlob d⟩] := by
  rw [parseAll, if_neg (List.cons_ne_nil _ _), List.mapM_cons, List.mapM_nil, parse,
    h.glob_parse_topPattern]
  rfl

end Exclusion

namespace Linter

open Exclusion

/-- With `d/**` as its only pattern, a linter leaves out what lies below any directory whose name
ends in `d`, though the glob pattern finds no more than what lies below `d` itself. -/
theorem excluded_iff_below_suffix (h : IsDirectoryName d) (hnames : Path.AreNames names) :
    ((topGlob d).accepts (Path.ofNames names).text = true ↔ IsBelowTop d names) ∧
    (∀ (linter : Linter) (glob : Glob), linter.exclusions = [⟨topPattern d, glob⟩] →
      (glob.accepts (Path.ofNames names).text = true → IsBelowTop d names) →
      (linter.isExcluded (linter.base.join (Path.ofNames names)) = true ↔
        ∃ name ∈ names.dropLast, d <:+ name)) ∧
    ∀ (isFile : Path → Bool) (cwd : Path) (request : LintRequest),
      request.excludes ++ request.config.analyzer.exclude = [topPattern d] →
      ∃ linter, ofRequest isFile cwd request = .ok linter ∧
        (linter.isExcluded (linter.base.join (Path.ofNames names)) = true ↔
          ∃ name ∈ names.dropLast, d <:+ name) := by
  have haccepts := topGlob_accepts_ofNames_iff h hnames
  refine ⟨haccepts, fun linter glob honly hglob => ?_, fun isFile cwd request honly => ?_⟩
  · rw [isExcluded_join honly hnames, excludes_topPattern_iff h hnames hglob]
  · have hparse := parseAll_topPattern h
    rw [← honly] at hparse
    obtain ⟨linter, hlinter, hexclusions⟩ := ofRequest_of_parseAll hparse isFile cwd
    refine ⟨linter, hlinter, ?_⟩
    rw [isExcluded_join hexclusions hnames, excludes_topPattern_iff h hnames haccepts.mp]

-- The directory `rebuild` is left out with `build`, and `builds` is not.
theorem excluded_below_rebuild :
    (¬IsBelowTop "build".toList ["src".toList, "rebuild".toList, "a.cpp".toList] ∧
      ∃ linter, ofRequest (fun _ => false) ⟨"/work"⟩
          { rules := [], excludes := ["build/**"] } = .ok linter ∧
        linter.isExcluded (linter.base.join
          (Path.ofNames ["src".toList, "rebuild".toList, "a.cpp".toList])) = true) ∧
    ∃ linter, ofRequest (fun _ => false) ⟨"/work"⟩
        { rules := [], excludes := ["build/**"] } = .ok linter ∧
      linter.isExcluded (linter.base.join
        (Path.ofNames ["builds".toList, "build".toList])) = false := by
  have hdirectory : IsDirectoryName "build".toList := ⟨by decide, by decide, by decide⟩
  constructor
  · have hnames : Path.AreNames ["src".toList, "rebuild".toList, "a.cpp".toList] :=
      ⟨by unfold Path.AreClean; decide, by decide⟩
    obtain ⟨linter, hlinter, hiff⟩ :=
      (excluded_iff_below_suffix hdirectory hnames).2.2 (fun _ => false) ⟨"/work"⟩
        { rules := [], excludes := ["build/**"] } rfl
    exact ⟨by unfold IsBelowTop; decide, linter, hlinter, hiff.mpr (by decide)⟩
  · have hnames : Path.AreNames ["builds".toList, "build".toList] :=
      ⟨by unfold Path.AreClean; decide, by decide⟩
    obtain ⟨linter, hlinter, hiff⟩ :=
      (excluded_iff_below_suffix hdirectory hnames).2.2 (fun _ => false) ⟨"/work"⟩
        { rules := [], excludes := ["build/**"] } rfl
    exact ⟨linter, hlinter, Bool.not_eq_true _ ▸ mt hiff.mp (by decide)⟩

end Linter

end WidthCheck
