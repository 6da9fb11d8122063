import WidthCheck.CommandLine.Arguments
import WidthCheck.CommandLine.Snippet
import WidthCheck.Json.Result
import WidthCheck.Rule.Registry

/-!
# Output
-/

namespace WidthCheck.CommandLine

/-- A colour of the terminal. -/
inductive Colour where
  | red
  | green
  | yellow
  | blue
deriving DecidableEq, Repr

/-- The sequence that switches a colour on. -/
def Colour.sequence : Colour → String
  | red => "\x1b[31m"
  | green => "\x1b[32m"
  | yellow => "\x1b[33m"
  | blue => "\x1b[34m"

/-- A text in a colour. -/
def Colour.paint (c : Colour) (text : String) : String := c.sequence ++ text ++ "\x1b[0m"

def severityColour : Severity → Colour
  | .error => .red
  | .warning => .yellow
  | .info => .blue

/-- The colour of the last line: that of the gravest findings. Remarks do not count. -/
def summaryColour (r : LintResult) : Colour :=
  if 0 < r.totals.errors then .red else if 0 < r.totals.warnings then .yellow else .green

/-- The last line. -/
def summary (r : LintResult) : String := (summaryColour r).paint ("Found " ++ r.tally) ++ "\n"

/-- The findings, each in a paragraph, and the last line. -/
def textOutput (r : LintResult) : String :=
  String.join (r.violations.map fun v =>
    v.paragraph ((severityColour v.severity).paint v.severity.name) ++ "\n") ++ summary r

/-- The findings, each in a line. -/
def compactOutput (r : LintResult) : String :=
  String.join (r.violations.map fun v => v.line ++ "\n")

/-- The findings with their snippets, and the last line. `text` gives the text of a file. -/
def prettyOutput (text : Path → Option String) (r : LintResult) : String :=
  String.join (r.violations.map fun v => v.narrate (text v.location.file) ++ "\n") ++ summary r

/-- The findings in a format. -/
def output (text : Path → Option String) (r : LintResult) : OutputFormat → String
  | .text => textOutput r
  | .json => r.toJson.pretty ++ "\n"
  | .compact => compactOutput r
  | .pretty => prettyOutput text r

/-- A text with blanks after it, up to this number of characters. -/
def pad (width : Nat) (text : String) : String :=
  String.ofList (text.toList ++ List.replicate (width - text.length) ' ')

/-- A line of the table of rules. -/
def ruleLine (rule : Rule) : String :=
  pad 10 rule.code ++ " " ++ pad 25 rule.name ++ " " ++ rule.severity.name ++ " " ++
    rule.description ++ "\n"

/-- The table of rules. -/
def ruleTable (rules : List Rule) : String :=
  "Available rules:\n\n" ++
    pad 10 "Code" ++ " " ++ pad 25 "Name" ++ " " ++ pad 10 "Severity" ++ " Description\n" ++
    String.ofList (List.replicate 90 '-') ++ "\n" ++
    String.join (rules.map ruleLine) ++
    "\nUse --rules to filter specific rules, e.g.:\n" ++
    "  width-lint check --rules no-long\n" ++
    "  width-lint check --rules WL001\n"

end WidthCheck.CommandLine
