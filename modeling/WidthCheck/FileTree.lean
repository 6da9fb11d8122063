import WidthCheck.ParseTree.Node
import WidthCheck.Path
import WidthCheck.Text.Utf8

/-!
# File trees

The files that an analysis can see. A tree lists its entries by the names on the way to them from
the top; directories above an entry need not be listed.
-/

namespace WidthCheck

/-- What a file holds. -/
inductive FileContent where
  /-- A text and its parse tree. -/
  | text (content : String) (tree : ParseTree)
  /-- Bytes that are not a text. -/
  | binary (bytes : List UInt8)
deriving Inhabited

namespace FileContent

/-- The bytes of a file. -/
def bytes : FileContent → List UInt8
  | text content _ => Text.utf8 content.toList
  | binary bytes => bytes

/-- The lines of a file, without their line ends; `none` stands for a line that is not a text. -/
def lines : FileContent → List (Option (List Char))
  | text content _ => (Text.lines content.toList).map some
  | binary bytes => (Text.byteLines bytes).map Text.decode?

end FileContent

/-- An entry of a file tree. -/
inductive FileEntry where
  | directory
  | file (content : FileContent)
deriving Inhabited

/-- The names on the way from the top to an entry. -/
abbrev Route := List (List Char)

/-- Why a path leads to no entry. -/
inductive RouteError where
  | missing
  /-- A file is used as a directory. -/
  | notADirectory
deriving DecidableEq, Repr

/-- How the operating system words it. -/
def RouteError.message : RouteError → String
  | missing => "No such file or directory (os error 2)"
  | notADirectory => "Not a directory (os error 20)"

/-- A tree of files. -/
structure FileTree where
  entries : List (Route × FileEntry) := []
deriving Inhabited

namespace FileTree

/-- The entry that is listed for a route. -/
def entry? (tree : FileTree) (route : Route) : Option FileEntry := tree.entries.lookup route

/-- What the file at the end of a route holds, if there is one. -/
def content? (tree : FileTree) (route : Route) : Option FileContent :=
  match tree.entry? route with
  | some (.file content) => some content
  | _ => none

/-- Whether a route leads to a directory, listed or above an entry. -/
def hasDirectory (tree : FileTree) (route : Route) : Bool :=
  route.isEmpty || ((tree.content? route).isNone && tree.entries.any (route.isPrefixOf ·.1))

/-- Whether a route leads somewhere. -/
def has (tree : FileTree) (route : Route) : Bool :=
  (tree.content? route).isSome || tree.hasDirectory route

/-- Goes one step from a directory. -/
def step (tree : FileTree) (route : Route) (piece : List Char) : Except RouteError Route :=
  if !tree.hasDirectory route then .error .notADirectory
  else if Path.isIdle piece then .ok route
  else if piece = ['.', '.'] then .ok route.dropLast
  else if tree.has (route ++ [piece]) then .ok (route ++ [piece])
  else .error .missing

/-- Follows an absolute path. -/
def follow (tree : FileTree) (path : Path) : Except RouteError Route :=
  (Path.pieces path.text.toList).tail.foldlM tree.step []

/-- Follows a path from a working directory. The empty path leads nowhere. -/
def followFrom (tree : FileTree) (cwd path : Path) : Except RouteError Route :=
  if path.text = "" then .error .missing else tree.follow (cwd.join path)

/-- The file that a path leads to. -/
def fileAt? (tree : FileTree) (cwd path : Path) : Option FileContent :=
  match tree.followFrom cwd path with
  | .ok route => tree.content? route
  | .error _ => none

def isFile (tree : FileTree) (cwd path : Path) : Bool := (tree.fileAt? cwd path).isSome

/-- The text of the file that a path leads to. -/
def textAt? (tree : FileTree) (cwd path : Path) : Option String :=
  match tree.fileAt? cwd path with
  | some (.text content _) => some content
  | _ => none

/-- The absolute path of a route. -/
def pathOf (route : Route) : Path := ⟨String.ofList ('/' :: Path.joinPieces route)⟩

/-- The absolute path, without idle pieces and double dots, of what a path leads to. -/
def canonical? (tree : FileTree) (cwd path : Path) : Option Path :=
  match tree.followFrom cwd path with
  | .ok route => some (pathOf route)
  | .error _ => none

/-- Puts a file into the tree, in place of what was there. -/
def write (tree : FileTree) (route : Route) (content : FileContent) : FileTree :=
  ⟨(route, .file content) :: tree.entries.filter (·.1 ≠ route)⟩

/-- Puts a directory into the tree, unless there is one. -/
def addDirectory (tree : FileTree) (route : Route) : FileTree :=
  if tree.hasDirectory route then tree else ⟨(route, .directory) :: tree.entries⟩

/-- The files below a directory, each by the names on the way from there. -/
def filesBelow (tree : FileTree) (directory : Route) : List (Route × FileContent) :=
  tree.entries.filterMap fun (route, entry) =>
    match entry, directory.isPrefixOf? route with
    | .file content, some (name :: names) => some (name :: names, content)
    | _, _ => none

end FileTree

end WidthCheck
