import WidthCheck.Linter.Basic
import WidthCheck.Linter.IgnoreLayer

/-!
# Finding source files

Below the root, all files with a source extension are found, except those that are excluded and
those that ignore files hide. A hidden directory hides all that is in it. The root itself is never
hidden, and a root that is a file is taken whatever its name.

Ignore files count for the directory they are in and below it, also if they stand above the root.
Something wrong with those above the root ends the analysis; with others it does not matter.
-/

namespace WidthCheck

/-- What decides which entries are hidden in an analysis. -/
structure IgnoreScope where
  workspace : Workspace
  /-- Whether `.gitignore` files count. -/
  respectGitignore : Bool
  /-- The root of the analysis, as written, and the way to it. -/
  rootPath : Path
  root : Route
  /-- The ignore file of the user. -/
  global : IgnoreFile

namespace IgnoreScope

/-- The path of an entry, by the names from the root on. -/
def pathOf (scope : IgnoreScope) (names : Route) : Path :=
  names.foldl (fun path name => path.join ⟨String.ofList name⟩) scope.rootPath

/-- The routes above another one, from the top on. -/
def routesAbove (route : Route) : List Route := (List.range route.length).map (route.take ·)

/-- The layers above the root, from the top on. -/
def outerLayers (scope : IgnoreScope) : List IgnoreLayer :=
  (routesAbove scope.root).map
    (IgnoreLayer.ofDirectory scope.workspace scope.respectGitignore true)

/-- The layer of the root or of a directory below it. -/
def layer (scope : IgnoreScope) (directory : Route) : IgnoreLayer :=
  .ofDirectory scope.workspace scope.respectGitignore false directory

/-- The text of a path that patterns of the user are matched against: what follows the working
directory, and then a slash, at its front. -/
def globalText (scope : IgnoreScope) (path : Path) : List Char :=
  let text := path.text.toList
  match (scope.workspace.cwd.text.toList.isPrefixOf? text).getD text with
  | '/' :: rest => rest
  | rest => rest

/-- What the ignore file of the user says of an entry. -/
def globalVerdict? (scope : IgnoreScope) (names : Route) (isDirectory : Bool) : Option Bool :=
  scope.global.ignores? (Text.utf8 (scope.globalText (scope.pathOf names))) isDirectory

/-- Whether layers, given from the nearest on, hide an entry. -/
def isHidden (scope : IgnoreScope) (layers : List IgnoreLayer) (route : Route)
    (isDirectory : Bool) : Bool :=
  IgnoreLayer.hide layers (scope.globalVerdict? (route.drop scope.root.length) isDirectory) route
    isDirectory

/-- Whether a file, given by the names from a directory on, can be reached from there: neither it
nor a directory on the way is hidden. `layers` are those of the directory and above it, from the
nearest on. -/
def isReached (scope : IgnoreScope) (layers : List IgnoreLayer) (directory : Route) :
    Route → Bool
  | [] => true
  | [name] => !scope.isHidden layers (directory ++ [name]) false
  | name :: rest =>
      let next := directory ++ [name]
      !scope.isHidden layers next true && isReached scope (scope.layer next :: layers) next rest

end IgnoreScope

/-- A file to check. -/
structure SourceFile where
  path : Path
  content : FileContent

namespace Linter

/-- What decides which entries are hidden, for an analysis of a directory. -/
def ignoreScope (linter : Linter) (w : Workspace) (root : Route) : IgnoreScope where
  workspace := w
  respectGitignore := linter.config.analyzer.respectGitignore
  rootPath := linter.root
  root := root
  global := w.globalIgnore

/-- The source files below the root, in the order of the tree; `outer` are the layers above the
root, from the top on. -/
def sourcesBelow (linter : Linter) (scope : IgnoreScope) (outer : List IgnoreLayer) :
    List SourceFile :=
  let layers := scope.layer scope.root :: outer.reverse
  ((scope.workspace.tree.filesBelow scope.root).filter fun (names, _) =>
      let path := scope.pathOf names
      linter.isSource path && !linter.isExcluded path &&
        scope.isReached layers scope.root names).map
    fun (names, content) => { path := scope.pathOf names, content }

/-- Sorts files by their paths. -/
def sortFiles (files : List SourceFile) : List SourceFile :=
  files.mergeSort fun a b => (Path.compare a.path b.path).isLE

/-- The source files below a directory, sorted. -/
def discoverBelow (linter : Linter) (w : Workspace) (root : Route) :
    Except LintError (List SourceFile) :=
  let scope := linter.ignoreScope w root
  let outer := scope.outerLayers
  match outer.flatMap (·.faults) with
  | [] => .ok (sortFiles (linter.sourcesBelow scope outer))
  | fault :: faults => .error (.ignoreFiles fault faults)

/-- The source files of an analysis, sorted. -/
def discover (linter : Linter) (w : Workspace) : Except LintError (List SourceFile) :=
  match w.tree.follow linter.root with
  | .error cause => .error (.walk linter.root cause)
  | .ok route =>
      match w.tree.content? route with
      | some content => .ok [{ path := linter.root, content }]
      | none => linter.discoverBelow w route

end Linter

end WidthCheck
