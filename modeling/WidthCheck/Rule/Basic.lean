import WidthCheck.Diagnostic
import WidthCheck.Matcher
import WidthCheck.Severity

/-!
# Rules

A rule names the entities it wants to see and turns each of them into diagnostics.
-/

namespace WidthCheck

/-- A rule of the linter. -/
structure Rule where
  /-- The name, such as `no-long`. -/
  name : String
  /-- The code, such as `WL001`. -/
  code : String
  description : String := ""
  /-- The severity of its findings unless the configuration says otherwise. -/
  severity : Severity := .warning
  /-- Whether a directive that suppresses this rule has to give a reason. -/
  requiresReason : Bool := severity = .error
  matchers : List BoundMatcher
  /-- The diagnostics for one match in a unit. -/
  check : CompilationUnit → Match → List Diagnostic

namespace Rule

/-- Whether a rule is meant by a selector: its name or its code. -/
def isSelectedBy (rule : Rule) (selector : String) : Bool :=
  rule.name == selector || rule.code == selector

/-- What a rule reports on a unit, in the order of the matches. -/
def diagnostics (rule : Rule) (unit : CompilationUnit) : List Diagnostic :=
  (unit.findMatches rule.matchers).flatMap (rule.check unit)

end Rule

end WidthCheck
