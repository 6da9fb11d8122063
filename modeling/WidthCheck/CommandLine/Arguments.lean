import WidthCheck.Path

/-!
# Arguments

The program has a few commands, each with its options:

    width-lint [-v] [-c FILE] check [-f FORMAT] [--rules LIST] [-e PATTERN] [--strict-parse] [PATH]
    width-lint [-v] [-c FILE] list-rules
    width-lint [-v] [-c FILE] init [--force]

The options `-v` and `-c` may stand before and after the command. A value follows its option as the
next argument, after an equals sign, or, for an option of one letter, without anything between.
After `--` no argument is an option.
-/

namespace WidthCheck.CommandLine

/-- How findings are printed. -/
inductive OutputFormat where
  | text
  | json
  | compact
  | pretty
deriving DecidableEq, Repr

def OutputFormat.ofName? (name : String) : Option OutputFormat :=
  if name = "text" then some text
  else if name = "json" then some json
  else if name = "compact" then some compact
  else if name = "pretty" then some pretty
  else none

/-- What is checked, and how. -/
structure CheckOptions where
  path : Path := ⟨"."⟩
  format : OutputFormat := .text
  /-- The list of rules, as written. -/
  rules : Option String := none
  excludes : List String := []
  strict : Bool := false
deriving DecidableEq, Repr

/-- What the program is to do. -/
inductive Command where
  | check (options : CheckOptions)
  | listRules
  | init (force : Bool)
deriving DecidableEq, Repr

/-- A command and the options that every command has. -/
structure Invocation where
  /-- The configuration asked for. -/
  config : Option Path
  command : Command
deriving DecidableEq, Repr

/-- Why arguments give no invocation. -/
inductive Stop where
  /-- They are not understood. -/
  | refused
  /-- They ask for the version. -/
  | version
  /-- They ask for help. -/
  | help
deriving DecidableEq, Repr

/-! ## Options -/

/-- An option. -/
inductive Switch where
  | verbose
  | config
  | format
  | rules
  | exclude
  | strictParse
  | force
  | version
  | help
deriving DecidableEq, Repr

namespace Switch

def long : Switch → String
  | verbose => "verbose"
  | config => "config"
  | format => "format"
  | rules => "rules"
  | exclude => "exclude"
  | strictParse => "strict-parse"
  | force => "force"
  | version => "version"
  | help => "help"

def short? : Switch → Option Char
  | verbose => some 'v'
  | config => some 'c'
  | format => some 'f'
  | exclude => some 'e'
  | version => some 'V'
  | help => some 'h'
  | _ => none

def takesValue : Switch → Bool
  | config | format | rules | exclude => true
  | _ => false

/-- Whether the option may be given more than once. -/
def isRepeatable (s : Switch) : Bool := s == exclude

/-- Whether a text can be the value of the option. -/
def admits : Switch → String → Bool
  | config, value => value ≠ ""
  | format, value => (OutputFormat.ofName? value).isSome
  | _, _ => true

end Switch

/-- A place for options: before the command, or after a command. -/
inductive Level where
  | top
  | check
  | listRules
  | init
deriving DecidableEq, Repr

namespace Level

/-- The options that can be given at a level. -/
def switches : Level → List Switch
  | top => [.verbose, .config, .version, .help]
  | check => [.verbose, .config, .format, .rules, .exclude, .strictParse, .help]
  | listRules => [.verbose, .config, .help]
  | init => [.verbose, .config, .force, .help]

/-- The number of arguments at a level that are not options. -/
def operands : Level → Nat
  | check => 1
  | _ => 0

def ofCommand? (name : String) : Option Level :=
  if name = "check" then some check
  else if name = "list-rules" then some listRules
  else if name = "init" then some init
  else none

end Level

/-- What has been read at a level. -/
structure Given where
  /-- The options with their values, in order; the value of an option without one is empty. -/
  switches : List (Switch × String) := []
  operands : List String := []
deriving DecidableEq, Repr

namespace Given

def has (g : Given) (s : Switch) : Bool := g.switches.any (·.1 == s)

/-- The values of an option, in order. -/
def values (g : Given) (s : Switch) : List String :=
  (g.switches.filter (·.1 == s)).map Prod.snd

def value? (g : Given) (s : Switch) : Option String := (g.values s).head?

/-- Adds an option. Asking for the version or for help ends the reading. -/
def add (g : Given) (s : Switch) (value : String) : Except Stop Given :=
  if s = .version then .error .version
  else if s = .help then .error .help
  else if (g.has s && !s.isRepeatable) || !s.admits value then .error .refused
  else .ok { g with switches := g.switches ++ [(s, value)] }

/-- Adds an argument that is no option. -/
def addOperand (g : Given) (level : Level) (operand : String) : Except Stop Given :=
  if g.operands.length < level.operands then .ok { g with operands := g.operands ++ [operand] }
  else .error .refused

/-- Adds arguments that are no options. -/
def addOperands (level : Level) : Given → List String → Except Stop Given
  | g, [] => .ok g
  | g, operand :: rest =>
      match g.addOperand level operand with
      | .ok g => addOperands level g rest
      | .error stop => .error stop

end Given

/-! ## Reading -/

/-- Whether an argument cannot be the value of an option: it starts with a dash and goes on. -/
def isDashed (arg : String) : Bool :=
  match arg.toList with
  | '-' :: _ :: _ => true
  | _ => false

/-- Reads options of one letter from an argument. The result is what has been read, and the option
that still needs a value. -/
def readLetters (level : Level) (g : Given) : List Char → Except Stop (Given × Option Switch)
  | [] => .ok (g, none)
  | c :: rest =>
      match level.switches.find? (·.short? == some c) with
      | none => .error .refused
      | some s =>
          if s.takesValue then
            match rest with
            | [] => .ok (g, some s)
            | '=' :: value => (g.add s (String.ofList value)).map fun g => (g, none)
            | value => (g.add s (String.ofList value)).map fun g => (g, none)
          else
            match g.add s "" with
            | .ok g => readLetters level g rest
            | .error stop => .error stop

/-- Reads an option with a long name, given without its dashes. -/
def readLong (level : Level) (g : Given) (text : List Char) : Except Stop (Given × Option Switch) :=
  let name := String.ofList (text.takeWhile (· ≠ '='))
  match level.switches.find? (·.long == name), text.dropWhile (· ≠ '=') with
  | none, _ => .error .refused
  | some s, '=' :: value =>
      if s.takesValue then (g.add s (String.ofList value)).map fun g => (g, none)
      else .error .refused
  | some s, _ =>
      if s.takesValue then .ok (g, some s) else (g.add s "").map fun g => (g, none)

/-- Reads an argument that is an option. -/
def readSwitch (level : Level) (g : Given) : List Char → Except Stop (Given × Option Switch)
  | '-' :: '-' :: name => readLong level g name
  | '-' :: letters => readLetters level g letters
  | _ => .error .refused

/-- What is left after the arguments of a level: the command and the arguments after it. -/
abbrev Remainder := Option (Level × List String)

/-- Reads the arguments of a level, up to a command if the level is the top one. `pending` is the
option whose value comes next. -/
def readLevel (level : Level) :
    Given → Option Switch → List String → Except Stop (Given × Remainder)
  | g, none, [] => .ok (g, none)
  | _, some _, [] => .error .refused
  | g, some s, arg :: rest =>
      if isDashed arg then .error .refused
      else
        match g.add s arg with
        | .ok g => readLevel level g none rest
        | .error stop => .error stop
  | g, none, arg :: rest =>
      if arg = "--" then (Given.addOperands level g rest).map fun g => (g, none)
      else if isDashed arg then
        match readSwitch level g arg.toList with
        | .ok (g, pending) => readLevel level g pending rest
        | .error stop => .error stop
      else if level = .top then
        match Level.ofCommand? arg with
        | some command => .ok (g, some (command, rest))
        | none => .error (if arg = "help" then .help else .refused)
      else
        match g.addOperand level arg with
        | .ok g => readLevel level g none rest
        | .error stop => .error stop

/-- The command at a level with what has been given there. -/
def commandOf (level : Level) (g : Given) : Except Stop Command :=
  match level with
  | .top => .error .refused
  | .listRules => .ok .listRules
  | .init => .ok (.init (g.has .force))
  | .check =>
      let path := g.operands.head?.getD "."
      if path = "" then .error .refused
      else .ok (.check {
        path := ⟨path⟩
        format := ((g.value? .format).bind OutputFormat.ofName?).getD .text
        rules := g.value? .rules
        excludes := g.values .exclude
        strict := g.has .strictParse })

/-- The configuration asked for: after the command, before it, or in the environment. The last is
looked at, and must not be empty, unless both of the others are there. -/
def configOf (outer inner : Given) (environment : Option String) : Except Stop (Option Path) :=
  match inner.value? .config, outer.value? .config, environment with
  | some path, some _, _ => .ok (some ⟨path⟩)
  | _, _, some "" => .error .refused
  | inside, outside, outermost => .ok (((inside.or outside).or outermost).map Path.mk)

/-- Reads the arguments of the program. `environment` is the configuration that the environment asks
for. -/
def readArguments (environment : Option String) (args : List String) : Except Stop Invocation := do
  match ← readLevel .top {} none args with
  | (_, none) => .error .refused
  | (outer, some (level, rest)) =>
      let (inner, _) ← readLevel level {} none rest
      let command ← commandOf level inner
      let config ← configOf outer inner environment
      return { config, command }

end WidthCheck.CommandLine
