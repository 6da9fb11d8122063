import WidthCheck.Lowering.Instantiation
import WidthCheck.LintResult
import WidthCheck.Linter.Basic
import WidthCheck.Suppression

/-!
# Checking one file

The rules that are enabled look at the file one after another. A finding counts unless a directive
allows it at its line. If the directive gives no reason although one is needed, that is reported
instead.
-/

namespace WidthCheck

namespace Linter

/-- The rules that the configuration does not switch off. -/
def activeRules (linter : Linter) : List Rule :=
  linter.rules.filter fun rule => linter.config.isEnabled rule.name rule.code

/-- The severity of the findings of a rule. -/
def severityOf (linter : Linter) (rule : Rule) : Severity :=
  (linter.config.severity? rule.name rule.code).getD rule.severity

/-- The finding that a directive gives no reason. -/
def missingReason (rule : Rule) (location : Location) : Violation where
  code := rule.code
  rule := rule.name
  severity := .warning
  location := location
  message := "Allow directive for '" ++ rule.name ++ "' is missing a reason"
  suggestion := some
    ("Add reason=\"...\": // width-lint: allow(" ++ rule.name ++ ") reason=\"...\"")

/-- What becomes of a finding at a place where the rule is allowed or not. -/
def judge (rule : Rule) (severity : Severity) (location : Location) (message : String) :
    Allowance → Option Violation
  | .denied => some { code := rule.code, rule := rule.name, severity, location, message }
  | .allowed (some _) => none
  | .allowed none =>
      if rule.requiresReason || severity == .error then some (missingReason rule location) else none

/-- The violation that a diagnostic stands for, if any. `file` is the path to report. -/
def violation? (rule : Rule) (severity : Severity) (file : Path) (content : String)
    (d : Diagnostic) : Option Violation :=
  d.location.bind fun position =>
    judge rule severity
      { file, line := position.line, column := position.column
        offset := position.offset, length := position.length }
      d.message (Allowance.check content position.line rule.name rule.code)

/-- The warning about a diagnostic without a location. -/
def warning? (rule : Rule) (d : Diagnostic) : Option Warning :=
  if d.location.isNone then some (.noLocation rule.name d.message) else none

/-- The violations of one rule in a unit. -/
def ruleViolations (linter : Linter) (file : Path) (content : String) (unit : CompilationUnit)
    (rule : Rule) : List Violation :=
  (rule.diagnostics unit).filterMap (violation? rule (linter.severityOf rule) file content)

/-- The violations of all rules in a file, in the order in which the rules find them. -/
def violations (linter : Linter) (path : Path) (content : String) (unit : CompilationUnit) :
    List Violation :=
  linter.activeRules.flatMap (linter.ruleViolations (path.shownIn linter.base) content unit)

/-- The warnings about the diagnostics of all rules. -/
def dropped (linter : Linter) (unit : CompilationUnit) : List Warning :=
  linter.activeRules.flatMap fun rule => (rule.diagnostics unit).filterMap (warning? rule)

/-- Checks a file. The violations are not sorted. -/
def checkFile (linter : Linter) (path : Path) (content : String) (tree : ParseTree) :
    Outcome (List Violation) :=
  if tree.hasError && linter.strict then .fail (.parse path)
  else
    let state := Lowering.finalState (Source.ofString content) tree.root
    { warnings :=
        (if tree.hasError then [.recoveredTree path] else []) ++
          (state.tooDeepAt.map Warning.tooDeep).toList ++ linter.dropped state.unit
      result := .ok (linter.violations path content state.unit) }

/-- Checks a text as if it were the file at this path. -/
def checkSource (linter : Linter) (path : Path) (content : String) (tree : ParseTree) :
    Outcome (List Violation) :=
  (linter.checkFile path content tree).map fun violations =>
    (LintResult.sortAndDedup { violations }).violations

end Linter

end WidthCheck
