import WidthCheck.Text.Blank

/-!
# Paths

A path is a text; it is compared by its components. Repeated slashes, and the component `.` except
at the very start, do not count. `..` is a component like any other.
-/

namespace WidthCheck

/-- One component of a path. -/
inductive Component where
  /-- The slash at the start of an absolute path. -/
  | root
  /-- A dot at the start of a relative path. -/
  | here
  /-- Two dots. -/
  | parent
  | normal (name : List Char)
deriving DecidableEq, Repr

namespace Component

/-- The place of a kind of component in the order of components. -/
def rank : Component → Nat
  | root => 0
  | here => 1
  | parent => 2
  | normal _ => 3

def name : Component → List Char
  | normal n => n
  | _ => []

/-- Components are ordered by kind, names by their characters. -/
def compare (a b : Component) : Ordering :=
  compareLex (compareOn rank) (compareOn name) a b

end Component

/-- A path, as written. -/
structure Path where
  text : String
deriving DecidableEq, Repr, Inhabited

namespace Path

/-- How a path starts. -/
inductive Anchor where
  /-- With a slash. -/
  | root
  /-- With a dot as its first component. -/
  | here
  /-- With a name or two dots, or it is empty. -/
  | relative
deriving DecidableEq, Repr

/-- The pieces of a text between slashes. -/
def pieces (text : List Char) : List (List Char) := Text.splitWhere (· == '/') text

/-- Whether a piece is no component: it is empty or a dot. -/
def isIdle (piece : List Char) : Bool := piece == [] || piece == ['.']

/-- How a path starts, and the pieces after that. -/
def anatomy (p : Path) : Anchor × List (List Char) :=
  match pieces p.text.toList with
  | [] :: piece :: rest => (.root, piece :: rest)
  | ['.'] :: rest => (.here, rest)
  | all => (.relative, all)

def joinPieces (body : List (List Char)) : List Char := ['/'].intercalate body

/-- The path with this start and these pieces after it. -/
def assemble (anchor : Anchor) (body : List (List Char)) : Path :=
  ⟨String.ofList (match anchor with
    | .root => '/' :: joinPieces body
    | .here => if body = [] then ['.'] else '.' :: '/' :: joinPieces body
    | .relative => joinPieces body)⟩

/-- The components of pieces that do not start a path. -/
def bodyComponents (body : List (List Char)) : List Component :=
  (body.filter (!isIdle ·)).map fun piece => if piece = ['.', '.'] then .parent else .normal piece

/-- The components of a path. -/
def components (p : Path) : List Component :=
  match p.anatomy with
  | (.root, body) => .root :: bodyComponents body
  | (.here, body) => .here :: bodyComponents body
  | (.relative, body) => bodyComponents body

/-- Paths are ordered by their components. -/
def compare (p q : Path) : Ordering := List.compareLex Component.compare p.components q.components

def isAbsolute (p : Path) : Bool := p.text.toList.head? == some '/'

/-- Drops the pieces at the end that are no components. -/
def dropIdleEnd (body : List (List Char)) : List (List Char) :=
  (body.reverse.dropWhile isIdle).reverse

/-- What is left of pieces once this many components are taken from them. -/
def dropComponents : Nat → List (List Char) → List (List Char)
  | 0, body => body
  | n + 1, body => dropComponents n (body.dropWhile isIdle).tail

/-- What is left of a path once its first `count` components, at least one, are taken. -/
def remainder (p : Path) (count : Nat) : List (List Char) :=
  match p.anatomy with
  | (.relative, body) => dropComponents count body
  | (_, body) => dropComponents (count - 1) body

/-- The path relative to `base`, if it lies there: the text of the rest, without idle pieces at its
ends. -/
def relativeTo? (p base : Path) : Option Path :=
  let front := base.components
  if front.isPrefixOf p.components then
    if front = [] then some (assemble p.anatomy.1 (dropIdleEnd p.anatomy.2))
    else some (assemble .relative (dropIdleEnd ((p.remainder front.length).dropWhile isIdle)))
  else none

/-- A path below another one; an absolute path stays as it is. -/
def join (base p : Path) : Path :=
  if p.isAbsolute ∨ base.text = "" then p
  else if base.text.toList.getLast? = some '/' then ⟨base.text ++ p.text⟩
  else ⟨base.text ++ "/" ++ p.text⟩

/-- The path without its last component, if that is not the root. -/
def parent? (p : Path) : Option Path :=
  match p.anatomy.1, dropIdleEnd p.anatomy.2 with
  | .here, [] => some ⟨""⟩
  | _, [] => none
  | anchor, body => some (assemble anchor (dropIdleEnd body.dropLast))

/-- The last component of a path, if it is a name. -/
def fileName? (p : Path) : Option (List Char) :=
  match p.components.getLast? with
  | some (.normal name) => some name
  | _ => none

/-- What follows the last dot of the file name. A dot in front does not start an extension. -/
def extension? (p : Path) : Option String :=
  match p.fileName? with
  | none => none
  | some name =>
      let after := name.reverse.takeWhile (· ≠ '.')
      let before := name.reverse.dropWhile (· ≠ '.')
      if before.length ≤ 1 then none else some (String.ofList after.reverse)

/-- A path and the paths above it, the nearest first: `count` bounds their number. -/
def ancestorsUpTo : Nat → Path → List Path
  | 0, _ => []
  | count + 1, p =>
      match p.parent? with
      | some up => p :: ancestorsUpTo count up
      | none => [p]

/-- A path and all paths above it, the nearest first. -/
def ancestors (p : Path) : List Path := ancestorsUpTo (p.components.length + 1) p

/-- The extensions of C++ headers. -/
def headerExtensions : List String := ["h", "hh", "hpp", "hxx", "h++", "inl", "ipp"]

/-- Whether a path is that of a header, by its extension. -/
def isHeader (p : Path) : Bool :=
  match p.extension? with
  | some extension => headerExtensions.contains extension
  | none => false

/-- How a file is shown in a report on `base`: relative to it if it lies there. -/
def shownIn (p base : Path) : Path := (p.relativeTo? base).getD p

end Path

end WidthCheck
