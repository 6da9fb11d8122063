import WidthCheck.Lowering.Walk
import WidthCheck.Path
import WidthCheck.Rule.Registry

/-!
# Warnings

What a run has to say besides its findings.
-/

namespace WidthCheck

/-- A remark on a run. -/
inductive Warning where
  /-- A file has syntax errors and is checked as far as it could be parsed. -/
  | recoveredTree (path : Path)
  /-- Code is nested too deep to be analysed, from this line on. -/
  | tooDeep (line : Nat)
  /-- A finding is dropped because it has no location. -/
  | noLocation (rule message : String)
  /-- A file is not a text. -/
  | notText (path : Path)
  /-- A file has syntax errors and ends the run. -/
  | unparsed (path : Path)
  /-- A selector means no rule. -/
  | unknownRule (selector : String)
deriving DecidableEq, Repr

/-- What is wrong with a file that has syntax errors. -/
def syntaxErrorsText : String := "syntax errors in file"

namespace Warning

def message : Warning → String
  | recoveredTree path => path.text ++ " has syntax errors, linting recovered tree"
  | tooDeep line =>
      "Code nested deeper than " ++ toString Lowering.nestingLimit ++ " levels at line " ++
        toString line ++ " is not analyzed"
  | noLocation rule message => "Dropping " ++ rule ++ " diagnostic without a location: " ++ message
  | notText path => "Skipping non-UTF-8 file " ++ path.text
  | unparsed path => "Failed to parse " ++ path.text ++ ": " ++ syntaxErrorsText
  | unknownRule selector => "Unknown rule: " ++ selector

/-- The warnings about a choice of rules. -/
def ofSelectors (selectors : List String) : List Warning :=
  (Rule.unknownSelectors selectors).map unknownRule

end Warning

end WidthCheck
