import WidthCheck.Glob
import WidthCheck.Linter.IgnoreLayer
import WidthCheck.Warning

/-!
# Outcomes

An analysis gives a result or fails, and in either case has warnings.
-/

namespace WidthCheck

/-- Why an analysis fails. -/
inductive LintError where
  /-- The root of the analysis cannot be walked. -/
  | walk (path : Path) (cause : RouteError)
  /-- Something is wrong with ignore files above the root. -/
  | ignoreFiles (first : IgnoreFault) (others : List IgnoreFault)
  /-- A pattern of files to leave out is malformed. -/
  | glob (cause : Glob.Error)
  /-- A file has syntax errors although none are allowed. -/
  | parse (path : Path)
deriving DecidableEq, Repr

def LintError.message : LintError → String
  | walk path cause =>
      "Failed to walk source tree: " ++ path.text ++ ": IO error for operation on " ++ path.text ++
        ": " ++ cause.message
  | ignoreFiles first others =>
      "Failed to walk source tree: " ++
        "\n".intercalate ((first :: others).map IgnoreFault.message)
  | glob cause => "Invalid glob pattern: " ++ cause.message
  | parse path => "Parse error in " ++ path.text ++ ": " ++ syntaxErrorsText

/-- A result or an error, with the warnings given on the way. -/
structure Outcome (α : Type) where
  warnings : List Warning
  result : Except LintError α

namespace Outcome

variable {α β : Type}

def ok (a : α) : Outcome α := ⟨[], .ok a⟩

def fail (e : LintError) : Outcome α := ⟨[], .error e⟩

/-- Gives warnings before an outcome. -/
def warning (warnings : List Warning) (x : Outcome α) : Outcome α :=
  { x with warnings := warnings ++ x.warnings }

/-- Goes on with the result, if there is one. -/
def andThen (x : Outcome α) (f : α → Outcome β) : Outcome β :=
  match x.result with
  | .ok a => (f a).warning x.warnings
  | .error e => ⟨x.warnings, .error e⟩

def map (f : α → β) (x : Outcome α) : Outcome β := ⟨x.warnings, x.result.map f⟩

def ofExcept : Except LintError α → Outcome α := Outcome.mk []

end Outcome

end WidthCheck
