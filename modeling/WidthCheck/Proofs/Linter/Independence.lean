import Mathlib.Data.List.Basic
import Mathlib.Data.List.Pairwise
import WidthCheck.Proofs.Linter.Run

/-!
# Rules do not get in each other's way

What a configuration says about one rule is found under its name or code. If no two rules share a
name or code, it decides about the findings of that rule alone: the others are found, allowed,
sorted and kept as before.
-/

namespace WidthCheck

/-- No name or code of one rule is a name or code of the other. -/
structure Rule.Apart (a b : Rule) : Prop where
  names : a.name ≠ b.name
  name_code : a.name ≠ b.code
  code_name : a.code ≠ b.name
  codes : a.code ≠ b.code

theorem Rule.Apart.symm {a b : Rule} (h : a.Apart b) : b.Apart a :=
  ⟨h.names.symm, h.code_name.symm, h.name_code.symm, h.codes.symm⟩

instance : Std.Symm Rule.Apart := ⟨fun _ _ => Rule.Apart.symm⟩

/-- Two configurations say the same about all rules, except under the name and the code of one. -/
def Config.AgreesOutside (rule : Rule) (a b : Config) : Prop :=
  ∀ key, key ≠ rule.name → key ≠ rule.code → a.rules.lookup key = b.rules.lookup key

theorem Config.AgreesOutside.rule?_eq {rule other : Rule} {a b : Config}
    (h : a.AgreesOutside rule b) (hother : other.Apart rule) :
    a.rule? other.name other.code = b.rule? other.name other.code := by
  unfold Config.rule?
  rw [h other.name hother.names hother.name_code, h other.code hother.code_name hother.codes]

theorem Violation.code_of_compare_eq {v w : Violation} (h : v.compare w = .eq) :
    v.code = w.code := by
  simp only [compare, compareLex, Ordering.then_eq_eq] at h
  exact Std.LawfulEqCmp.eq_of_compare h.2.2.2.1

/-- The findings of all rules but one. -/
def Rule.othersAmong (rule : Rule) (found : List Violation) : List Violation :=
  found.filter (·.rule ≠ rule.name)

namespace Linter

variable {linter : Linter} {rule other : Rule}

/-! ## Whose finding it is -/

theorem rule_of_judge {severity : Severity} {location : Location} {message : String}
    {allowance : Allowance} {v : Violation}
    (h : judge rule severity location message allowance = some v) :
    v.rule = rule.name ∧ v.code = rule.code := by
  unfold judge at h
  split at h
  · cases h
    exact ⟨rfl, rfl⟩
  · cases h
  · split at h
    · cases h
      exact ⟨rfl, rfl⟩
    · cases h

theorem rule_of_mem_ruleViolations {file : Path} {content : String} {unit : CompilationUnit}
    {v : Violation} (h : v ∈ linter.ruleViolations file content unit rule) :
    v.rule = rule.name ∧ v.code = rule.code := by
  obtain ⟨d, -, hd⟩ := List.mem_filterMap.mp h
  obtain ⟨position, -, hjudge⟩ := Option.bind_eq_some_iff.mp hd
  exact rule_of_judge hjudge

theorem exists_rule_of_mem_findings {file : TextFile} {v : Violation}
    (h : v ∈ linter.findings file) :
    ∃ owner ∈ linter.activeRules, v.rule = owner.name ∧ v.code = owner.code := by
  obtain ⟨owner, howner, hmem⟩ := List.mem_flatMap.mp h
  exact ⟨owner, howner, rule_of_mem_ruleViolations hmem⟩

theorem mem_rules_of_mem_activeRules (h : rule ∈ linter.activeRules) : rule ∈ linter.rules :=
  (List.mem_filter.mp h).1

-- The order compares codes, and a code belongs to one rule.
theorem rule_of_compare_eq (hrules : linter.rules.Pairwise Rule.Apart) {file : TextFile}
    {v w : Violation} (hv : v ∈ linter.findings file) (hw : w ∈ linter.findings file)
    (h : v.compare w = .eq) : v.rule = w.rule := by
  obtain ⟨a, ha, hva⟩ := exists_rule_of_mem_findings hv
  obtain ⟨b, hb, hwb⟩ := exists_rule_of_mem_findings hw
  have hab : a = b := by
    by_contra hne
    have hapart := hrules.forall (mem_rules_of_mem_activeRules ha)
      (mem_rules_of_mem_activeRules hb) hne
    apply hapart.codes
    rw [← hva.2, ← hwb.2]
    exact Violation.code_of_compare_eq h
  rw [hva.1, hwb.1, hab]

/-! ## The findings of the other rules -/

-- Leaving out the findings of a rule is leaving out the rule.
theorem filter_findings (linter : Linter) (rule : Rule) (file : TextFile) :
    rule.othersAmong (linter.findings file) =
      (linter.activeRules.filter (·.name ≠ rule.name)).flatMap
        (linter.ruleViolations (file.path.shownIn linter.base) file.content
          (Lowering.finalState (Source.ofString file.content) file.tree.root).unit) := by
  unfold Rule.othersAmong findings violations
  generalize (Lowering.finalState (Source.ofString file.content) file.tree.root).unit = unit
  induction linter.activeRules with
  | nil => rfl
  | cons first rest ih =>
    have hfirst : ∀ v ∈ linter.ruleViolations (file.path.shownIn linter.base) file.content unit
        first, v.rule = first.name := fun v hv => (rule_of_mem_ruleViolations hv).1
    rw [List.flatMap_cons, List.filter_append, ih]
    by_cases hname : first.name = rule.name
    · rw [List.filter_cons_of_neg (by simp [hname]), List.filter_eq_nil_iff.mpr, List.nil_append]
      intro v hv
      simp [hfirst v hv, hname]
    · rw [List.filter_cons_of_pos (by simp [hname]), List.flatMap_cons, List.filter_eq_self.mpr]
      intro v hv
      simp [hfirst v hv, hname]

theorem activeRules_agree {config : Config} (hrules : linter.rules.Pairwise Rule.Apart)
    (hrule : rule ∈ linter.rules) (hconfig : linter.config.AgreesOutside rule config) :
    linter.activeRules.filter (·.name ≠ rule.name) =
      { linter with config }.activeRules.filter (·.name ≠ rule.name) := by
  unfold activeRules
  rw [List.filter_filter, List.filter_filter]
  refine List.filter_congr fun other hother => ?_
  by_cases hname : other.name = rule.name
  · simp [hname]
  · have hapart : other.Apart rule :=
      hrules.forall hother hrule fun heq => hname (heq ▸ rfl)
    simp only [Config.isEnabled, hconfig.rule?_eq hapart]

theorem findings_agree {config : Config} (hrules : linter.rules.Pairwise Rule.Apart)
    (hrule : rule ∈ linter.rules) (hconfig : linter.config.AgreesOutside rule config)
    (file : TextFile) :
    rule.othersAmong (linter.findings file) =
      rule.othersAmong ({ linter with config }.findings file) := by
  rw [filter_findings, filter_findings, ← activeRules_agree hrules hrule hconfig]
  refine List.flatMap_congr fun other hother => ?_
  obtain ⟨hactive, hname⟩ := List.mem_filter.mp hother
  have hapart : other.Apart rule := hrules.forall (mem_rules_of_mem_activeRules hactive) hrule
    fun heq => by simp [heq] at hname
  have hseverity : linter.severityOf other = { linter with config }.severityOf other := by
    simp only [severityOf, Config.severity?, hconfig.rule?_eq hapart]
  unfold ruleViolations
  rw [hseverity]

-- Findings that are the same belong to one rule, so sorting does not mix the rules up.
theorem othersAmong_sortAndDedup (hrules : linter.rules.Pairwise Rule.Apart) (rule : Rule)
    (file : TextFile) :
    rule.othersAmong (LintResult.sortAndDedup { violations := linter.findings file }).violations =
      (LintResult.sortAndDedup
        { violations := rule.othersAmong (linter.findings file) }).violations := by
  refine LintResult.filter_sortAndDedup fun v hv w hw heq => ?_
  rw [rule_of_compare_eq hrules hv hw heq]

/-! ## A rule that is switched off -/

theorem isEnabled_eq_false {config : Config} {name code : String} {entry : RuleConfig}
    (hentry : (config.rules.lookup name).or (config.rules.lookup code) = some entry)
    (hdisabled : entry.enabled = some false) : config.isEnabled name code = false := by
  unfold Config.isEnabled Config.rule?
  rw [hentry, Option.bind_some, hdisabled]
  rfl

theorem rule_ne_of_mem_findings (hrules : linter.rules.Pairwise Rule.Apart)
    (hrule : rule ∈ linter.rules)
    (hdisabled : linter.config.isEnabled rule.name rule.code = false) {file : TextFile}
    {v : Violation} (hv : v ∈ linter.findings file) : v.rule ≠ rule.name := by
  obtain ⟨owner, howner, hrow, -⟩ := exists_rule_of_mem_findings hv
  obtain ⟨hmem, henabled⟩ := List.mem_filter.mp howner
  have hne : owner ≠ rule := by
    rintro rfl
    rw [hdisabled] at henabled
    cases henabled
  rw [hrow]
  exact (hrules.forall hmem hrule hne).names

/-- If no two rules share a name or code, then what a configuration says about one of them changes
nothing in the findings of the others, and the first entry for a rule, by name or else by code, can
switch it off. -/
theorem checkSource_independent (linter : Linter) (config : Config) {rule : Rule}
    (hrules : linter.rules.Pairwise Rule.Apart) (hrule : rule ∈ linter.rules)
    (hconfig : linter.config.AgreesOutside rule config) (path : Path) (content : String)
    (tree : ParseTree) :
    (linter.checkSource path content tree).result.map rule.othersAmong =
        ({ linter with config }.checkSource path content tree).result.map rule.othersAmong ∧
      ∀ entry, (linter.config.rules.lookup rule.name).or (linter.config.rules.lookup rule.code) =
          some entry → entry.enabled = some false →
        ∀ found, (linter.checkSource path content tree).result = .ok found →
          ∀ v ∈ found, v.rule ≠ rule.name := by
  have hresult := linter.checkSource_result { path, content, tree }
  constructor
  · have hother := { linter with config }.checkSource_result { path, content, tree }
    have hrefuses : { linter with config }.refuses { path, content, tree } =
        linter.refuses { path, content, tree } := rfl
    rw [hresult, hother, hrefuses]
    split
    · rfl
    · refine congrArg Except.ok ?_
      have hother : { linter with config }.rules.Pairwise Rule.Apart := hrules
      rw [othersAmong_sortAndDedup hrules, othersAmong_sortAndDedup hother,
        findings_agree hrules hrule hconfig]
  · intro entry hentry hdisabled found hfound v hv
    rw [hresult] at hfound
    split at hfound
    · cases hfound
    · cases hfound
      have hmem : v ∈ linter.findings { path, content, tree } :=
        LintResult.mem_of_mem_sortAndDedup hv
      exact rule_ne_of_mem_findings hrules hrule (isEnabled_eq_false hentry hdisabled) hmem

end Linter

/-! ## Two rules that find the same -/

/-- A rule that reports the same as `no-long`, under a name and a code of its own. -/
def longAgain : Rule :=
  { name := "long-again", code := "WL002", matchers := NoLong.matchers, check := NoLong.check }

/-- `no-long` is switched off under its name, which counts before its code. -/
def twoRules : Linter where
  root := ⟨"/p"⟩
  base := ⟨"/p"⟩
  rules := [.noLong .warning, longAgain]
  exclusions := []
  config := { rules := [
    ("WL001", { enabled := some true }), ("WL002", { severity := some .error }),
    ("no-long", { enabled := some false })] }
  strict := false

/-- The same for `long-again`, and `no-long` is left as it is. -/
def oneEntry : Config := { rules := [("WL002", { severity := some .error })] }

/-- The tree of the text `long x;`. -/
def longTree : ParseTree where
  root := .mk { kind := .other "translation_unit", span := ⟨0, 7⟩ } [
    .mk { kind := .declaration, span := ⟨0, 7⟩ } [
      .mk { kind := .sizedTypeSpecifier, field := some .type, span := ⟨0, 4⟩ } [],
      .mk { kind := .identifier, field := some .declarator, span := ⟨5, 6⟩ } []]]
  hasError := false

theorem twoRules_independent :
    (twoRules.checkSource ⟨"/p/a.h"⟩ "long x;" longTree).result.map
        (Rule.noLong .warning).othersAmong =
      ({ twoRules with config := oneEntry }.checkSource ⟨"/p/a.h"⟩ "long x;" longTree).result.map
        (Rule.noLong .warning).othersAmong ∧
    ∀ found, (twoRules.checkSource ⟨"/p/a.h"⟩ "long x;" longTree).result = .ok found →
      ∀ v ∈ found, v.rule ≠ "no-long" := by
  have hagree : twoRules.config.AgreesOutside (.noLong .warning) oneEntry := by
    intro key hname hcode
    have hkeys : (key == "WL001") = false ∧ (key == "no-long") = false :=
      ⟨beq_false_of_ne hcode, beq_false_of_ne hname⟩
    cases hkey : key == "WL002" with
    | true => simp [twoRules, oneEntry, List.lookup_cons, hkeys, hkey]
    | false => simp [twoRules, oneEntry, List.lookup_cons, hkeys, hkey]
  have happly := twoRules.checkSource_independent oneEntry
    (by
      refine .cons (fun other hother => ?_) (List.pairwise_singleton _ _)
      rw [List.mem_singleton.mp hother]
      exact ⟨by decide, by decide, by decide, by decide⟩)
    List.mem_cons_self hagree ⟨"/p/a.h"⟩ "long x;" longTree
  exact ⟨happly.1, happly.2 { enabled := some false } (by decide) rfl⟩

end WidthCheck
