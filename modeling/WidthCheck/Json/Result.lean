import WidthCheck.Json.Basic
import WidthCheck.LintResult

/-!
# Results as JSON
-/

namespace WidthCheck

/-! ## Writing -/

namespace Location

def toJson (l : Location) : Json :=
  .obj [("file", .str l.file.text), ("line", .ofNat l.line), ("column", .ofNat l.column),
    ("offset", .ofNat l.offset), ("length", .ofNat l.length)]

end Location

namespace Violation

/-- The suggestion is left out when there is none. -/
def toJson (v : Violation) : Json :=
  .obj ([("code", .str v.code), ("rule", .str v.rule), ("severity", .str v.severity.name),
    ("location", v.location.toJson), ("message", .str v.message)] ++
    match v.suggestion with
    | some s => [("suggestion", .obj [("message", .str s)])]
    | none => [])

end Violation

namespace LintResult

def toJson (r : LintResult) : Json :=
  .obj [("violations", .arr (r.violations.map Violation.toJson)),
    ("files_checked", .ofNat r.filesChecked)]

end LintResult

/-! ## Reading -/

/-- A severity is written as its name, or as an object with the name as its only member. -/
def Severity.ofJson? : Json → Option Severity
  | .str name => ofName? name
  | .obj [(name, .null)] => ofName? name
  | _ => none

def Location.ofJson? (j : Json) : Option Location := do
  match ← j.fields? ["file", "line", "column", "offset", "length"] with
  | [some file, some line, some column, some offset, some length] =>
      return {
        file := ⟨← file.str?⟩, line := ← line.nat?, column := ← column.nat?
        offset := ← offset.nat?, length := ← length.nat? }
  | _ => none

/-- Reads the message of a suggestion. -/
def Violation.suggestionOfJson? (j : Json) : Option String := do
  match ← j.fields? ["message"] with
  | [some message] => message.str?
  | _ => none

/-- Reads a violation; the suggestion may be missing. -/
def Violation.ofJson? (j : Json) : Option Violation := do
  match ← j.fields? ["code", "rule", "severity", "location", "message", "suggestion"] with
  | [some code, some rule, some severity, some location, some message, suggestion] =>
      let suggestion ← match suggestion with
        | none | some .null => some none
        | some s => (suggestionOfJson? s).map some
      return {
        code := ← code.str?, rule := ← rule.str?, severity := ← Severity.ofJson? severity
        location := ← Location.ofJson? location, message := ← message.str?, suggestion }
  | _ => none

def LintResult.ofJson? (j : Json) : Option LintResult := do
  match ← j.fields? ["violations", "files_checked"] with
  | [some violations, some files] =>
      return {
        violations := ← (← violations.items?).mapM Violation.ofJson?
        filesChecked := ← files.nat? }
  | _ => none

end WidthCheck
