import WidthCheck.Path
import WidthCheck.Severity
import WidthCheck.Toml.Reader

/-!
# Configuration
-/

namespace WidthCheck

/-- Which files are analysed. -/
structure AnalyzerConfig where
  root : Path := ⟨"."⟩
  /-- Patterns of files to leave out. -/
  exclude : List String := []
  /-- The extensions of source files. -/
  extensions : List String :=
    ["cpp", "cc", "cxx", "c++", "h", "hh", "hpp", "hxx", "h++", "ipp", "inl"]
  respectGitignore : Bool := true
deriving DecidableEq, Repr, Inhabited

/-- What a configuration says about one rule. -/
structure RuleConfig where
  enabled : Option Bool := none
  severity : Option Severity := none
deriving DecidableEq, Repr, Inhabited

/-- A configuration. -/
structure Config where
  /-- The severity from which on findings make a run fail. -/
  failOn : Option Severity := none
  analyzer : AnalyzerConfig := {}
  /-- By name or code of the rule. -/
  rules : List (String × RuleConfig) := []
deriving DecidableEq, Repr, Inhabited

namespace Config

/-- What is said about a rule: under its name, or else under its code. -/
def rule? (config : Config) (name code : String) : Option RuleConfig :=
  (config.rules.lookup name).or (config.rules.lookup code)

/-- Rules are enabled unless the configuration says otherwise. -/
def isEnabled (config : Config) (name code : String) : Bool :=
  ((config.rule? name code).bind (·.enabled)).getD true

/-- The severity that the configuration gives to a rule. -/
def severity? (config : Config) (name code : String) : Option Severity :=
  (config.rule? name code).bind (·.severity)

/-- The severity from which on findings make a run fail. -/
def threshold (config : Config) : Severity := config.failOn.getD .error

end Config

/-! ## Reading a configuration -/

open Toml (Value)

/-- Reads a field that may be missing. -/
def readField {α : Type} (read : Value → Option α) (default : α) : Option Value → Option α
  | some value => read value
  | none => some default

/-- Reads a field that may be missing and has no default. -/
def readOption {α : Type} (read : Value → Option α) : Option Value → Option (Option α)
  | some value => (read value).map some
  | none => some none

/-- Whether a value is an empty table or an empty array. -/
def isEmptyValue : Value → Bool
  | .table [] => true
  | .arr [] => true
  | _ => false

/-- A severity is written as its name, or as a table whose only key is the name, with nothing in
it. -/
def Severity.ofToml? : Value → Option Severity
  | .str name => ofName? name
  | .table [(name, value)] => if isEmptyValue value then ofName? name else none
  | _ => none

/-- Reads a list of strings. -/
def readStrings (value : Value) : Option (List String) := do
  (← value.items?).mapM Value.str?

def AnalyzerConfig.ofToml? (value : Value) : Option AnalyzerConfig := do
  let default : AnalyzerConfig := {}
  match ← value.fields? ["root", "exclude", "extensions", "respect_gitignore"] with
  | [root, exclude, extensions, respectGitignore] =>
      return {
        root := ← readField (fun v => v.str?.map Path.mk) default.root root
        exclude := ← readField readStrings default.exclude exclude
        extensions := ← readField readStrings default.extensions extensions
        respectGitignore := ← readField Value.bool? default.respectGitignore respectGitignore }
  | _ => none

def RuleConfig.ofToml? (value : Value) : Option RuleConfig := do
  match ← value.fields? ["enabled", "severity"] with
  | [enabled, severity] =>
      return {
        enabled := ← readOption Value.bool? enabled
        severity := ← readOption Severity.ofToml? severity }
  | _ => none

/-- Reads what is said about rules. -/
def readRules (value : Value) : Option (List (String × RuleConfig)) := do
  (← value.members?).mapM fun (name, v) => do return (name, ← RuleConfig.ofToml? v)

def Config.ofToml? (value : Value) : Option Config := do
  match ← value.fields? ["fail_on", "analyzer", "rules"] with
  | [failOn, analyzer, rules] =>
      return {
        failOn := ← readOption Severity.ofToml? failOn
        analyzer := ← readField AnalyzerConfig.ofToml? {} analyzer
        rules := ← readField readRules [] rules }
  | _ => none

/-- Reads a configuration from the text of its file. -/
def Config.parse? (text : String) : Option Config := do
  Config.ofToml? (← Toml.parse? text)

end WidthCheck
