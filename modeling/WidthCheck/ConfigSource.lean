import WidthCheck.Path

/-!
# Where the configuration comes from

A configuration that is asked for by its path is taken, whether it exists or not. Otherwise the
directory of the analysis and the directories above it are searched, and then the directory for the
configuration of the user. If nothing is found, the defaults hold.
-/

namespace WidthCheck

/-- Where the configuration comes from. -/
inductive ConfigSource where
  /-- The file asked for. -/
  | explicit (path : Path)
  /-- A file in the directory of the analysis or above it. -/
  | project (path : Path)
  /-- The file of the user. -/
  | user (path : Path)
  /-- No file. -/
  | defaults
deriving DecidableEq, Repr

namespace ConfigSource

/-- The file to read, if any. -/
def path? : ConfigSource → Option Path
  | explicit path | project path | user path => some path
  | defaults => none

/-- The names of the file in a project, the preferred one first. -/
def projectNames : List Path := [⟨"width-lint.toml"⟩, ⟨".width-lint.toml"⟩]

/-- The name of the file of the user in its directory. -/
def userName : Path := ⟨"config.toml"⟩

/-- The file of a project in one directory. -/
def inDirectory? (isFile : Path → Bool) (directory : Path) : Option Path :=
  (projectNames.map directory.join).find? isFile

/-- The file of a project in a directory or the nearest directory above it. -/
def inProject? (isFile : Path → Bool) (start : Path) : Option Path :=
  start.ancestors.findSome? (inDirectory? isFile)

/-- The file of the user. -/
def inUser? (isFile : Path → Bool) (directory : Option Path) : Option Path :=
  (directory.map (·.join userName)).filter isFile

/-- Finds the configuration for an analysis in the directory `start`. -/
def resolve (isFile : Path → Bool) (start : Path) (asked userDirectory : Option Path) :
    ConfigSource :=
  match asked, inProject? isFile start, inUser? isFile userDirectory with
  | some path, _, _ => explicit path
  | none, some path, _ => project path
  | none, none, some path => user path
  | none, none, none => defaults

end ConfigSource

end WidthCheck
