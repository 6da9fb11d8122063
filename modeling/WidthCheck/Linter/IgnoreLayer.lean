import WidthCheck.Workspace.GlobalIgnore

/-!
# Ignore files of directories

A directory has up to three ignore files: `.ignore`, `.gitignore`, and, if it is the top of a
repository, `info/exclude` in the directory `.git`. If `.git` is a file, it names the directory of a
working tree, where the file `commondir` names the directory to use in place of `.git`.

A nearer file wins over a farther one. Every `.ignore` file wins over every `.gitignore` file, those
win over the `info/exclude` files, and these over the ignore file of the user. All but the first
kind count only inside a repository, and up to the top of the nearest one.
-/

namespace WidthCheck

/-- Something wrong with a file that ignore files depend on. -/
inductive IgnoreFault where
  /-- A line of an ignore file is wrong. -/
  | line (path : Path) (number : Nat) (problem : IgnoreLineProblem)
  /-- A file that names a directory is not a text. -/
  | notText (path : Path)
  /-- A file that names a directory is a directory itself. -/
  | isDirectory (path : Path)
deriving DecidableEq, Repr

def IgnoreFault.message : IgnoreFault → String
  | line path number problem =>
      path.text ++ ": line " ++ toString number ++ ": " ++ problem.message
  | notText path => path.text ++ ": " ++ notTextMessage
  | isDirectory path => path.text ++ ": Is a directory (os error 21)"

namespace Workspace

/-! ## Where the files are -/

/-- The first line of a file, if it has one. -/
def firstLine? (path : Path) (content : FileContent) : Except IgnoreFault (Option (List Char)) :=
  match content.lines with
  | [] => .ok none
  | none :: _ => .error (.notText path)
  | some line :: _ => .ok (some line)

/-- The directory that the working tree with this directory shares with others. -/
def commonDirectory? (w : Workspace) (workingTree : Path) : Except IgnoreFault (Option Path) :=
  let path := workingTree.join ⟨"commondir"⟩
  match w.fileAt? path with
  | none => if w.isDirectory path then .error (.isDirectory path) else .ok none
  | some content => do
      match ← firstLine? path content with
      | none => return none
      | some line =>
          let common : Path := ⟨String.ofList line⟩
          return some (if line.head? = some '.' then workingTree.join common else common)

/-- What a file in place of `.git` names the directory of its working tree after. -/
def workingTreeMark : List Char := "gitdir: ".toList

/-- The directory that holds what git keeps of a directory. -/
def gitDirectory? (w : Workspace) (directory : Route) : Except IgnoreFault (Option Path) :=
  let path := (FileTree.pathOf directory).join ⟨".git"⟩
  match w.tree.content? (directory ++ [".git".toList]) with
  | none => .ok (some path)
  | some content => do
      match (← firstLine? path content).bind workingTreeMark.isPrefixOf? with
      | none => return none
      | some name => w.commonDirectory? ⟨String.ofList name⟩

/-- Whether a directory is the top of a repository. -/
def isRepository (w : Workspace) (directory : Route) : Bool :=
  w.tree.has (directory ++ [".git".toList]) || w.tree.has (directory ++ [".jj".toList])

end Workspace

/-- The ignore files of a directory. -/
structure IgnoreLayer where
  /-- The number of names on the way to the directory. -/
  depth : Nat
  ignore : IgnoreFile := {}
  gitignore : IgnoreFile := {}
  exclude : IgnoreFile := {}
  /-- Whether the directory counts as the top of a repository. -/
  isRepository : Bool := false
  /-- What is wrong with the files. -/
  faults : List IgnoreFault := []

namespace IgnoreLayer

/-- What is wrong with the ignore file at a path. -/
def faultsIn (path : Path) (file : IgnoreFile) : List IgnoreFault :=
  file.faults.map fun (number, problem) => .line path number problem

/-- The file `info/exclude` of a directory, and what is wrong with it. -/
def excludeOf (w : Workspace) (directory : Route) : IgnoreFile × List IgnoreFault :=
  match w.gitDirectory? directory with
  | .error fault => ({}, [fault])
  | .ok none => ({}, [])
  | .ok (some git) =>
      let path := git.join ⟨"info/exclude"⟩
      let file : IgnoreFile := .ofContent? (w.fileAt? path)
      (file, faultsIn path file)

/-- The ignore files of a directory. If `.gitignore` files are not respected, they are left out, and
directories above the root of the analysis count as no repositories. -/
def ofDirectory (w : Workspace) (respectGitignore aboveRoot : Bool) (directory : Route) :
    IgnoreLayer :=
  let path := FileTree.pathOf directory
  let ignore := .ofContent? (w.tree.content? (directory ++ [".ignore".toList]))
  let gitignore :=
    if respectGitignore then .ofContent? (w.tree.content? (directory ++ [".gitignore".toList]))
    else {}
  let (exclude, excludeFaults) := excludeOf w directory
  { depth := directory.length, ignore, gitignore, exclude
    isRepository := (respectGitignore || !aboveRoot) && w.isRepository directory
    faults :=
      faultsIn (path.join ⟨".ignore"⟩) ignore ++ faultsIn (path.join ⟨".gitignore"⟩) gitignore ++
        excludeFaults }

/-- The layers, given from the nearest on, up to the top of a repository. None if there is none. -/
def repository (layers : List IgnoreLayer) : List IgnoreLayer :=
  if layers.any (·.isRepository) then
    layers.takeWhile (!·.isRepository) ++ (layers.dropWhile (!·.isRepository)).take 1
  else []

/-- What the first layer that says something of an entry says: whether it is hidden. -/
def verdict? (file : IgnoreLayer → IgnoreFile) (layers : List IgnoreLayer) (route : Route)
    (isDirectory : Bool) : Option Bool :=
  layers.findSome? fun layer =>
    (file layer).ignores? (Text.utf8 (Path.joinPieces (route.drop layer.depth))) isDirectory

/-- Whether layers, given from the nearest on, hide an entry. `global` is what the ignore file of
the user says of it. -/
def hide (layers : List IgnoreLayer) (global : Option Bool) (route : Route) (isDirectory : Bool) :
    Bool :=
  let inRepository := repository layers
  ((verdict? ignore layers route isDirectory).or
    ((verdict? gitignore inRepository route isDirectory).or
      ((verdict? exclude inRepository route isDirectory).or
        (if inRepository.isEmpty then none else global)))).getD false

end IgnoreLayer

end WidthCheck
