import WidthCheck.FileTree
import WidthCheck.Text.Blank

/-!
# Listings of files

A listing gives the files of a tree with their parse trees, as a parser writes them:

    directory src
    binary logo.png
    file src/a.cpp
    >long x;
    >
    =0	declaration		0	7	1
    =1	sized_type_specifier	type	0	4	1
    =1	identifier	declarator	5	6	1

The lines of a file follow it, each after `>`; a file that ends in a line feed has an empty line at
its end. The rows of its parse tree follow, each after `=`, with tabs between the columns. The bytes
of a binary file are not listed.
-/

namespace WidthCheck

/-- A line of a listing. -/
inductive ListingLine where
  | directory (path : Path)
  | binary (path : Path)
  | file (path : Path)
  | text (line : List Char)
  | row (row : Row)

namespace ListingLine

/-- Reads a row of a parse tree. -/
def parseRow? (columns : List Char) : Option Row := do
  match (Text.splitWhere (· == '\t') columns).map String.ofList with
  | [depth, kind, field, start, stop, flags] =>
      return .ofColumns (← depth.toNat?) kind field (← start.toNat?) (← stop.toNat?)
        (← flags.toNat?)
  | _ => none

/-- Reads a line that is not empty and starts with `c`. -/
def parseFrom? (c : Char) (rest : List Char) : Option ListingLine :=
  if c = '>' then some (text rest)
  else if c = '=' then (parseRow? rest).map row
  else
    match "directory ".toList.isPrefixOf? (c :: rest), "binary ".toList.isPrefixOf? (c :: rest),
        "file ".toList.isPrefixOf? (c :: rest) with
    | some path, _, _ => some (directory ⟨String.ofList path⟩)
    | _, some path, _ => some (binary ⟨String.ofList path⟩)
    | _, _, some path => some (file ⟨String.ofList path⟩)
    | none, none, none => none

def parse? : List Char → Option ListingLine
  | [] => none
  | c :: rest => parseFrom? c rest

end ListingLine

/-- What has been read of a listing, from its end. -/
structure ListingTail where
  tree : FileTree := {}
  /-- Lines and rows of a file that is still to come. -/
  lines : List (List Char) := []
  rows : List Row := []

namespace FileTree

/-- The route of a path from a directory. -/
def routeFrom (cwd path : Path) : Route :=
  (Path.pieces (cwd.join path).text.toList).filter (!Path.isIdle ·)

/-- Puts a line of a listing in front of what follows it. -/
def addLine (cwd : Path) (line : ListingLine) (after : ListingTail) : ListingTail :=
  match line with
  | .text content => { after with lines := content :: after.lines }
  | .row row => { after with rows := row :: after.rows }
  | .directory path => { tree := after.tree.addDirectory (routeFrom cwd path) }
  | .binary path => { tree := after.tree.write (routeFrom cwd path) (.binary []) }
  | .file path => {
      tree := after.tree.write (routeFrom cwd path)
        (.text (String.ofList (['\n'].intercalate after.lines))
          ((ParseTree.ofRows? after.rows).getD .empty)) }

/-- The tree with this listing; paths are relative to `cwd`. -/
def ofListing? (cwd : Path) (lines : List (List Char)) : Option FileTree :=
  (lines.mapM ListingLine.parse?).map fun parsed =>
    (parsed.foldr (addLine cwd) {}).tree.addDirectory (routeFrom cwd ⟨"."⟩)

end FileTree

end WidthCheck
