import WidthCheck.FileTree

/-!
# Workspaces

The files that an analysis can see, and the directories that relative paths and the settings of the
user are looked for in.
-/

namespace WidthCheck

/-- Where an analysis takes place. -/
structure Workspace where
  tree : FileTree
  /-- The working directory. -/
  cwd : Path
  /-- The home directory of the user. -/
  home : Option Path := none
  /-- The directory for the settings of the user, instead of the usual one in the home directory. -/
  settings : Option Path := none

namespace Workspace

/-- The file that a path leads to. -/
def fileAt? (w : Workspace) (path : Path) : Option FileContent := w.tree.fileAt? w.cwd path

/-- Whether a path leads to a directory. -/
def isDirectory (w : Workspace) (path : Path) : Bool :=
  match w.tree.followFrom w.cwd path with
  | .ok route => w.tree.hasDirectory route
  | .error _ => false

/-- The directory for the settings of the user. -/
def settingsDirectory? (w : Workspace) : Option Path :=
  (w.settings.filter (·.text ≠ "")).or (w.home.map (·.join ⟨".config"⟩))

end Workspace

end WidthCheck
