import WidthCheck.Violation

/-!
# Results of a run
-/

namespace WidthCheck

/-- The findings of a run and the number of files they were looked for in. -/
structure LintResult where
  violations : List Violation := []
  filesChecked : Nat := 0
deriving DecidableEq, Repr, Inhabited

/-- The numbers of errors, warnings and remarks. -/
structure Totals where
  errors : Nat
  warnings : Nat
  infos : Nat
deriving DecidableEq, Repr

namespace LintResult

def count (r : LintResult) (severity : Severity) : Nat :=
  r.violations.countP (·.severity == severity)

def totals (r : LintResult) : Totals :=
  { errors := r.count .error, warnings := r.count .warning, infos := r.count .info }

def hasErrors (r : LintResult) : Bool := r.violations.any (·.severity == .error)

/-- Whether a finding is at least as grave as `threshold`. -/
def failsAt (r : LintResult) (threshold : Severity) : Bool :=
  r.violations.any (·.severity.atLeast threshold)

/-- Drops from a list the findings that are the same as the one kept just before. -/
def dedupAfter (kept : Violation) : List Violation → List Violation
  | [] => []
  | v :: rest =>
      if Violation.compare kept v = .eq then dedupAfter kept rest else v :: dedupAfter v rest

/-- Of findings in a row that are the same, keeps the first. -/
def dedup : List Violation → List Violation
  | [] => []
  | v :: rest => v :: dedupAfter v rest

/-- Sorts the findings and keeps each once. -/
def sortAndDedup (r : LintResult) : LintResult :=
  { r with violations := dedup (r.violations.mergeSort fun a b => (Violation.compare a b).isLE) }

/-- The findings of both results. -/
def append (r s : LintResult) : LintResult :=
  { violations := r.violations ++ s.violations, filesChecked := r.filesChecked + s.filesChecked }

/-- The numbers of findings and files, in one line. -/
def tally (r : LintResult) : String :=
  toString r.totals.errors ++ " error(s), " ++ toString r.totals.warnings ++ " warning(s), " ++
    toString r.totals.infos ++ " info(s) in " ++ toString r.filesChecked ++ " file(s)"

/-- A report that lists the findings at least as grave as `threshold` and counts all. -/
def report (r : LintResult) (threshold : Severity) : String :=
  let failing := r.violations.filter (·.severity.atLeast threshold)
  "\n=== width-lint: " ++ toString failing.length ++ " violation(s) ===\n\n" ++
    String.join (failing.map fun v => v.format ++ "\n") ++
    "Total: " ++ r.tally ++ "\n"

end LintResult

end WidthCheck
