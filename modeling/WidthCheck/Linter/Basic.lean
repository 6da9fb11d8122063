import WidthCheck.Config
import WidthCheck.Exclusion
import WidthCheck.Linter.Outcome
import WidthCheck.Rule.Basic

/-!
# Linters

A linter is set up once, from the rules, the configuration and the root, and then checks files.
-/

namespace WidthCheck

/-- What a linter is asked to do. -/
structure LintRequest where
  /-- The file or directory to analyse, instead of that of the configuration. -/
  root : Option Path := none
  rules : List Rule
  /-- Patterns of files to leave out, besides those of the configuration. -/
  excludes : List String := []
  config : Config := {}
  /-- Whether a file with syntax errors ends the run. -/
  strict : Bool := false

/-- A linter. -/
structure Linter where
  /-- The file or directory to analyse. -/
  root : Path
  /-- The directory that reported paths are relative to. -/
  base : Path
  rules : List Rule
  exclusions : List Exclusion
  config : Config
  strict : Bool

namespace Linter

/-- The directory of a root: that of the file if it is a file, and else the root itself. -/
def baseOf (isFile : Bool) (root : Path) : Path :=
  if isFile then root.parent?.getD root else root

/-- Sets up a linter in a working directory. -/
def ofRequest (isFile : Path → Bool) (cwd : Path) (request : LintRequest) :
    Except LintError Linter :=
  let root := cwd.join (request.root.getD request.config.analyzer.root)
  match Exclusion.parseAll (request.excludes ++ request.config.analyzer.exclude) with
  | .error e => .error (.glob e)
  | .ok exclusions => .ok {
      root, exclusions
      base := baseOf (isFile root) root
      rules := request.rules
      config := request.config
      strict := request.strict }

/-- Whether a path is left out of the analysis. -/
def isExcluded (linter : Linter) (path : Path) : Bool :=
  linter.exclusions.any (·.excludes (path.shownIn linter.base))

/-- Whether a path is that of a source file, by its extension. -/
def isSource (linter : Linter) (path : Path) : Bool :=
  match path.extension? with
  | some extension => linter.config.analyzer.extensions.contains extension
  | none => false

end Linter

end WidthCheck
