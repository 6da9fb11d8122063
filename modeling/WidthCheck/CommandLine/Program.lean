import WidthCheck.CommandLine.Output
import WidthCheck.ConfigSource
import WidthCheck.Linter.Run

/-!
# The program

What the program prints, for its arguments, its environment and the files it can see.
-/

namespace WidthCheck.CommandLine

/-- What surrounds a run of the program. -/
structure Environment where
  /-- The working directory. -/
  cwd : Path
  /-- The configuration that is asked for. -/
  config : Option String := none
  /-- The directory for the configuration of the user. -/
  configDirectory : Option Path := none
  /-- The home directory of the user. -/
  home : Option Path := none
  /-- The directory for the settings of other programs. -/
  settings : Option Path := none

/-- Where an analysis takes place. -/
def Environment.workspace (env : Environment) (tree : FileTree) : Workspace :=
  { tree, cwd := env.cwd, home := env.home, settings := env.settings }

/-- The directory for the configuration of the user: as asked for, or else in the home directory. -/
def Environment.userDirectory (env : Environment) : Option Path :=
  env.configDirectory.or (env.home.map (·.join ⟨".width-lint"⟩))

/-- Why the program fails. -/
inductive Failure where
  /-- A configuration cannot be read. -/
  | config (path : Path)
  /-- The linter cannot be set up. -/
  | setup
  /-- The analysis fails. -/
  | analysis
  /-- There is a configuration file already. -/
  | configExists
  /-- The configuration file cannot be written, because there is a directory of its name. -/
  | configIsDirectory
deriving DecidableEq, Repr

/-- The configuration file that the program writes. -/
def configName : Path := ⟨"width-lint.toml"⟩

def Failure.message : Failure → String
  | config path => "Failed to load config: " ++ path.text
  | setup => "Failed to build engine"
  | analysis => "Analysis failed"
  | configExists =>
      "Configuration file already exists at " ++ configName.text ++ ". Use --force to overwrite."
  | configIsDirectory => "Is a directory (os error 21)"

/-- What a run of the program does. -/
structure Response where
  /-- The exit status. -/
  exit : Nat := 0
  stdout : String := ""
  failure : Option Failure := none
  /-- A file that is written, relative to the working directory. -/
  written : Option (Path × String) := none

def Response.fail (failure : Failure) : Response := { exit := 1, failure := some failure }

/-! ## Checking -/

/-- The directory in which the configuration of a project is looked for: that of a file, or the
path itself. -/
def projectDirectory (tree : FileTree) (cwd path : Path) : Path :=
  if tree.isFile cwd path then path.parent?.getD ⟨"."⟩ else path

/-- The configuration for an analysis. -/
def configSource (env : Environment) (tree : FileTree) (asked : Option Path) (path : Path) :
    ConfigSource :=
  let directory := projectDirectory tree env.cwd path
  .resolve (tree.isFile env.cwd) ((tree.canonical? env.cwd directory).getD directory) asked
    env.userDirectory

/-- Reads a configuration. -/
def loadConfig (env : Environment) (tree : FileTree) (source : ConfigSource) :
    Except Failure Config :=
  match source.path? with
  | none => .ok {}
  | some path =>
      match (tree.textAt? env.cwd path).bind Config.parse? with
      | some config => .ok config
      | none => .error (.config path)

/-- The rules in a list with commas. -/
def rulesOf : Option String → List Rule
  | none => Rule.all
  | some list =>
      Rule.select ((((Text.splitWhere (· == ',') list.toList).map Text.trim).filter (· ≠ [])).map
        String.ofList)

/-- Checks files and prints what is found. -/
def check (env : Environment) (tree : FileTree) (asked : Option Path) (options : CheckOptions) :
    Except Failure Response := do
  let config ← loadConfig env tree (configSource env tree asked options.path)
  let request : LintRequest := {
    root := some options.path, rules := rulesOf options.rules, excludes := options.excludes
    config, strict := options.strict }
  match Linter.ofRequest (tree.isFile env.cwd) env.cwd request with
  | .error _ => .error .setup
  | .ok linter =>
      match (linter.run (env.workspace tree)).result with
      | .error _ => .error .analysis
      | .ok result => return {
          exit := if result.failsAt config.threshold then 1 else 0
          stdout := output (fun file => tree.textAt? env.cwd (linter.base.join file)) result
            options.format }

/-! ## Writing a configuration -/

/-- The configuration file to start with. -/
def defaultConfig : String :=
  "# width-lint configuration\n" ++
    "\n" ++
    "# Minimum severity that makes `width-lint check` exit with status 1\n" ++
    "fail_on = \"error\"\n" ++
    "\n" ++
    "[analyzer]\n" ++
    "# Root directory to analyze (default: current directory)\n" ++
    "# root = \"./src\"\n" ++
    "\n" ++
    "# Glob patterns to exclude from analysis\n" ++
    "exclude = [\n" ++
    "    \"**/build/**\",\n" ++
    "    \"**/third_party/**\",\n" ++
    "    \"**/vendor/**\",\n" ++
    "]\n" ++
    "\n" ++
    "# File extensions treated as C++ sources\n" ++
    "extensions = [\"cpp\", \"cc\", \"cxx\", \"c++\", \"h\", \"hh\", \"hpp\", \"hxx\", " ++
    "\"h++\", \"ipp\", \"inl\"]\n" ++
    "\n" ++
    "# Respect .gitignore files\n" ++
    "respect_gitignore = true\n" ++
    "\n" ++
    "# Rule configurations\n" ++
    "# Each rule can be enabled/disabled and have its severity overridden\n" ++
    "\n" ++
    "[rules.no-long]\n" ++
    "enabled = true\n" ++
    "# severity = \"error\"  # Escalate; suppressions then need reason=\"...\"\n"

/-- What is said when a configuration file has been written. -/
def initOutput : String :=
  "Created width-lint.toml\n\nNext steps:\n  1. Edit width-lint.toml to configure rules\n" ++
    "  2. Run: width-lint check\n"

/-- Writes a configuration file, in place of an old one only if asked to. -/
def init (env : Environment) (tree : FileTree) (force : Bool) : Except Failure Response :=
  match tree.followFrom env.cwd configName with
  | .error _ => .ok { stdout := initOutput, written := some (configName, defaultConfig) }
  | .ok route =>
      if !force then .error .configExists
      else if tree.hasDirectory route then .error .configIsDirectory
      else .ok { stdout := initOutput, written := some (configName, defaultConfig) }

/-! ## Running -/

/-- The version of the program. -/
def versionText : String := "width-lint 0.1.0\n"

/-- What is printed when help is asked for. -/
def helpText : String :=
  "Usage: width-lint [-v] [-c FILE] <COMMAND>\n\nCommands:\n" ++
    "  check       [-f FORMAT] [--rules LIST] [-e PATTERN]... [--strict-parse] [PATH]\n" ++
    "  list-rules\n" ++
    "  init        [--force]\n"

/-- Runs the program. -/
def run (env : Environment) (tree : FileTree) (args : List String) : Response :=
  match readArguments env.config args with
  | .error .refused => { exit := 2 }
  | .error .version => { stdout := versionText }
  | .error .help => { stdout := helpText }
  | .ok invocation =>
      let response := match invocation.command with
        | .check options => check env tree invocation.config options
        | .listRules => .ok { stdout := ruleTable Rule.all }
        | .init force => init env tree force
      match response with
      | .ok response => response
      | .error failure => .fail failure

/-- The files after a run of the program. -/
def Response.apply (response : Response) (env : Environment) (tree : FileTree) : FileTree :=
  match response.written with
  | none => tree
  | some (name, content) =>
      match tree.follow env.cwd with
      | .ok route => tree.write (route ++ [name.text.toList]) (.text content .empty)
      | .error _ => tree

end WidthCheck.CommandLine
