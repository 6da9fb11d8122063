import WidthCheck.Path
import WidthCheck.Severity

/-!
# Violations
-/

namespace WidthCheck

/-- A place in a file. -/
structure Location where
  file : Path
  line : Nat
  column : Nat
  offset : Nat := 0
  length : Nat := 0
deriving DecidableEq, Repr

/-- A finding of a rule in a file. -/
structure Violation where
  code : String
  rule : String
  severity : Severity
  location : Location
  message : String
  /-- How to mend it. -/
  suggestion : Option String := none
deriving DecidableEq, Repr

namespace Violation

/-- File, line and column, as a compiler writes them. -/
def place (v : Violation) : String :=
  v.location.file.text ++ ":" ++ toString v.location.line ++ ":" ++ toString v.location.column

/-- Code and message. -/
def heading (v : Violation) : String := "[" ++ v.code ++ "] " ++ v.message

/-- The violation in one line. -/
def line (v : Violation) : String :=
  v.place ++ ": " ++ v.severity.name ++ ": " ++ v.message ++ " [" ++ v.rule ++ "]"

/-- The lines that show a violation, with the severity written as `severity`. -/
def paragraph (v : Violation) (severity : String) : String :=
  v.code ++ " " ++ v.rule ++ " at " ++ v.place ++ "\n" ++
    "  " ++ severity ++ ": " ++ v.message ++ "\n" ++
    (match v.suggestion with
      | some s => "  = help: " ++ s ++ "\n"
      | none => "")

/-- The violation in a few lines. -/
def format (v : Violation) : String := v.paragraph v.severity.name

/-- Violations are ordered by file, line, column, code and message. Two that are equal in this
order are the same finding. -/
def compare (a b : Violation) : Ordering :=
  compareLex (fun a b => Path.compare a.location.file b.location.file)
    (compareLex (compareOn (·.location.line))
      (compareLex (compareOn (·.location.column))
        (compareLex (compareOn Violation.code) (compareOn Violation.message)))) a b

end Violation

end WidthCheck
