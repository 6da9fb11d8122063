import WidthCheck.Text.Blank
import WidthCheck.Text.Find

/-!
# Suppression directives

A comment can allow a rule at a line:

    // width-lint: allow(no-long) reason="matches the POSIX signature"
    long tv_sec;  // NOLINT(no-long)
    // NOLINTNEXTLINE(WL001)

The first form holds for its own line and the next one, `NOLINT` for its own line, and
`NOLINTNEXTLINE` for the next one. Without a list of rules the last two allow every rule.
-/

namespace WidthCheck

/-- Which lines a directive holds for. -/
inductive Reach where
  | sameLine
  | nextLine
  | sameAndNextLine
deriving DecidableEq, Repr

/-- Whether a directive written on one line holds for another. -/
def Reach.covers (reach : Reach) (written target : Nat) : Bool :=
  match reach with
  | .sameLine => written == target
  | .nextLine => written + 1 == target
  | .sameAndNextLine => written == target || written + 1 == target

/-- A suppression directive. -/
structure Directive where
  /-- Names or codes of rules; if there are none, every rule is meant. -/
  rules : List (List Char)
  reason : Option (List Char)
  reach : Reach
deriving DecidableEq, Repr

namespace Directive

/-- Whether a directive allows the rule with this name and code. -/
def appliesTo (d : Directive) (name code : List Char) : Bool :=
  d.rules.isEmpty || d.rules.contains name || d.rules.contains code || d.rules.contains ['*'] ||
    d.rules.contains "all".toList

/-- What follows the first mark of a comment in a line. -/
def afterMark : List Char → Option (List Char)
  | '/' :: '/' :: rest => some rest
  | '/' :: '*' :: rest => some rest
  | _ :: rest => afterMark rest
  | [] => none

/-- The text of the comment in a line, without the marks of the comment. -/
def commentText (line : List Char) : Option (List Char) :=
  (afterMark line).map fun rest =>
    let body := rest.dropWhile (· == '/')
    Text.trim (("*/".toList.isSuffixOf? body).getD body)

/-- The entries of a list of rules. -/
def splitRules (list : List Char) : List (List Char) :=
  ((Text.splitWhere (· == ',') list).map Text.trim).filter (· ≠ [])

/-- Splits a text at the first closing parenthesis. -/
def splitParen (cs : List Char) : Option (List Char × List Char) := Text.splitFirst [')'] cs

/-- Reads `reason="…"`. -/
def parseReason (cs : List Char) : Option (List Char) := do
  let value ← "reason=".toList.isPrefixOf? cs
  let quoted ← ['"'].isPrefixOf? (Text.trim value)
  let (reason, _) ← Text.splitFirst ['"'] quoted
  return reason

/-- Reads `allow(rules) reason="…"`; the list must not be empty. -/
def parseAllow (cs : List Char) : Option Directive := do
  let content ← "allow(".toList.isPrefixOf? cs
  let (list, rest) ← splitParen (Text.trim content)
  let rules := splitRules list
  if rules = [] then none
  else some { rules, reason := parseReason (Text.trim rest), reach := .sameAndNextLine }

/-- The reason written after a directive of the second form. -/
def trailingReason (cs : List Char) : Option (List Char) :=
  let reason := Text.trim ((Text.trim cs).dropWhile fun c => c == ':' || c == '-')
  if reason = [] then none else some reason

/-- Reads what follows `NOLINT` or `NOLINTNEXTLINE`: an optional list of rules and a reason. -/
def parseList (reach : Reach) : List Char → Option Directive
  | '(' :: rest => do
      let (list, after) ← splitParen rest
      return { rules := splitRules list, reason := trailingReason after, reach }
  | rest => some { rules := [], reason := trailingReason rest, reach }

/-- Reads a directive of the second form. The forms for blocks are not known. -/
def parseNolint (comment : List Char) : Option Directive := do
  let (_, after) ← Text.splitFirst "NOLINT".toList comment
  match "NEXTLINE".toList.isPrefixOf? after with
  | some rest => parseList .nextLine rest
  | none =>
      if "BEGIN".toList.isPrefixOf after || "END".toList.isPrefixOf after then none
      else parseList .sameLine after

/-- The directive in a line. -/
def parse (line : List Char) : Option Directive := do
  let comment ← commentText line
  match "width-lint:".toList.isPrefixOf? comment with
  | some rest => parseAllow (Text.trim rest)
  | none => parseNolint comment

end Directive

/-- Whether a rule is allowed at a line, and with what reason. -/
inductive Allowance where
  | denied
  | allowed (reason : Option String)
deriving DecidableEq, Repr

namespace Allowance

def isAllowed : Allowance → Bool
  | allowed _ => true
  | denied => false

def reason? : Allowance → Option String
  | allowed reason => reason
  | denied => none

/-- The directive on line `written` that allows the rule at line `target`. -/
def directiveFor (lines : List (List Char)) (name code : List Char) (target written : Nat) :
    Option Directive := do
  if written = 0 then none
  else
    let line ← lines[written - 1]?
    let directive ← Directive.parse line
    if directive.reach.covers written target && directive.appliesTo name code then some directive
    else none

/-- Whether a text allows a rule at a line. The line before is asked first. -/
def check (content : String) (line : Nat) (name code : String) : Allowance :=
  if line = 0 then denied
  else
    let lines := Text.lines content.toList
    let found := directiveFor lines name.toList code.toList line
    match (found (line - 1)).or (found line) with
    | some directive => allowed (directive.reason.map String.ofList)
    | none => denied

end Allowance

end WidthCheck
