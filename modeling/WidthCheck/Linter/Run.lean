import WidthCheck.Linter.Check
import WidthCheck.Linter.Discovery

/-!
# Checking many files
-/

namespace WidthCheck

namespace Linter

/-- Checks one of many files. Files that are not texts are skipped. A file with syntax errors ends
the run with a warning and an error if the linter is strict. -/
def visit (linter : Linter) (file : SourceFile) : Outcome LintResult :=
  match file.content with
  | .binary _ => .warning [.notText file.path] (.ok {})
  | .text content tree =>
      let checked := (linter.checkFile file.path content tree).map fun violations =>
        ({ violations, filesChecked := 1 } : LintResult)
      match checked.result with
      | .ok _ => checked
      | .error _ => { checked with warnings := checked.warnings ++ [.unparsed file.path] }

/-- Checks files one after another and puts their results together, unsorted. -/
def visitAll (linter : Linter) : List SourceFile → Outcome LintResult
  | [] => .ok {}
  | file :: rest =>
      (linter.visit file).andThen fun first => (visitAll linter rest).map first.append

/-- Checks files and sorts what is found. -/
def runOn (linter : Linter) (files : List SourceFile) : Outcome LintResult :=
  (linter.visitAll files).map LintResult.sortAndDedup

/-- Checks all source files of an analysis. -/
def run (linter : Linter) (w : Workspace) : Outcome LintResult :=
  (Outcome.ofExcept (linter.discover w)).andThen linter.runOn

end Linter

end WidthCheck
