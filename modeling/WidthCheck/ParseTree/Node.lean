import WidthCheck.ParseTree.Kind

/-!
# Parse trees

A parse tree gives the shape of a source text; the text itself is kept apart and nodes hold byte
ranges into it. A tree is read from its listing, one row per node, a parent before its children.
-/

namespace WidthCheck

/-- A range of bytes of the source text. -/
structure Span where
  start : Nat
  stop : Nat
deriving DecidableEq, Repr, Inhabited

/-- What a node says of itself, its children apart. -/
structure Label where
  kind : Kind
  field : Option Field := none
  span : Span
  /-- Whether the node stands for a rule of the grammar and not for a fixed token. -/
  isNamed : Bool := true
  /-- Whether the node may stand anywhere, as comments do. -/
  isExtra : Bool := false
  /-- Whether the node was inserted by error recovery and is not in the text. -/
  isMissing : Bool := false
  /-- Where the sibling just before this node stands. -/
  before : Option Span := none
deriving DecidableEq, Repr, Inhabited

/-- A node of a parse tree. -/
inductive Node where
  | mk (label : Label) (children : List Node)
deriving Inhabited

namespace Node

def label : Node → Label
  | mk l _ => l

/-- All children, from left to right. -/
def children : Node → List Node
  | mk _ cs => cs

def kind (n : Node) : Kind := n.label.kind

def span (n : Node) : Span := n.label.span

/-- The children that stand for rules of the grammar, comments left out. -/
def named (n : Node) : List Node := n.children.filter fun c => c.label.isNamed && !c.label.isExtra

/-- The first child with this role. -/
def field? (n : Node) (f : Field) : Option Node := n.children.find? (·.label.field == some f)

/-- All children with this role. -/
def fieldAll (n : Node) (f : Field) : List Node := n.children.filter (·.label.field == some f)

/-- The first child of this kind. -/
def ofKind? (n : Node) (k : Kind) : Option Node := n.children.find? (·.kind == k)

def hasField (n : Node) (f : Field) : Bool := (n.field? f).isSome

theorem sizeOf_lt_of_mem_children {c n : Node} (h : c ∈ n.children) : sizeOf c < sizeOf n := by
  cases n with
  | mk l cs =>
    have hlt : sizeOf c < sizeOf cs := List.sizeOf_lt_of_mem h
    simp only [mk.sizeOf_spec]
    omega

theorem mem_children_of_mem_named {c n : Node} (h : c ∈ n.named) : c ∈ n.children :=
  (List.mem_filter.mp h).1

theorem mem_children_of_head?_named {c n : Node} (h : n.named.head? = some c) : c ∈ n.children :=
  mem_children_of_mem_named (List.mem_of_mem_head? h)

theorem mem_children_of_getLast?_named {c n : Node} (h : n.named.getLast? = some c) :
    c ∈ n.children :=
  mem_children_of_mem_named (List.mem_of_getLast? h)

theorem mem_children_of_field? {c n : Node} {f : Field} (h : n.field? f = some c) :
    c ∈ n.children :=
  List.mem_of_find?_eq_some h

theorem mem_children_of_ofKind? {c n : Node} {k : Kind} (h : n.ofKind? k = some c) :
    c ∈ n.children :=
  List.mem_of_find?_eq_some h

/-- The last component of a qualified name: `c` of `a::b::c`. Any other node is its own. -/
def innermostName (n : Node) : Node :=
  if n.kind = .qualifiedIdentifier then
    match _h : n.field? .name with
    | some name => name.innermostName
    | none => n
  else n
termination_by sizeOf n
decreasing_by exact sizeOf_lt_of_mem_children (mem_children_of_field? ‹_›)

theorem sizeOf_innermostName_le (n : Node) : sizeOf n.innermostName ≤ sizeOf n := by
  fun_induction innermostName n with
  | case1 n _ name hname ih =>
    have := sizeOf_lt_of_mem_children (mem_children_of_field? hname)
    omega
  | case2 | case3 => exact Nat.le_refl _

end Node

/-- A parse tree and whether the text had errors. -/
structure ParseTree where
  root : Node
  hasError : Bool
deriving Inhabited

/-- One row of a listing of a parse tree. -/
structure Row where
  /-- The number of nodes above this one. -/
  depth : Nat
  label : Label
  /-- Whether the tree has errors; only the row of the root says so. -/
  hasError : Bool := false

/-- A row from its columns. The flags are 1 for a rule of the grammar, 2 for a node that may stand
anywhere, 4 for a node that is not in the text and 8 for a tree with errors. -/
def Row.ofColumns (depth : Nat) (kind field : String) (start stop flags : Nat) : Row where
  depth := depth
  label := {
    kind := .ofName kind
    field := Field.ofName field
    span := { start, stop }
    isNamed := flags.testBit 0
    isExtra := flags.testBit 1
    isMissing := flags.testBit 2 }
  hasError := flags.testBit 3

namespace ParseTree

/-- The tree of an empty file. -/
def empty : ParseTree :=
  { root := .mk { kind := .other "", span := ⟨0, 0⟩ } [], hasError := false }

/-- Tells every node of a row of siblings where the one before it stands. -/
def linkSiblings : Option Span → List Node → List Node
  | _, [] => []
  | before, .mk label children :: rest =>
      .mk { label with before := before } children :: linkSiblings (some label.span) rest

/-- Puts a row in front of the finished nodes that follow it, taking those below it as its
children. -/
def addRow (row : Row) (after : List (Nat × Node)) : List (Nat × Node) :=
  let isBelow := fun (entry : Nat × Node) => decide (row.depth < entry.1)
  let children := (after.takeWhile isBelow).map Prod.snd
  (row.depth, .mk row.label (linkSiblings none children)) :: after.dropWhile isBelow

/-- The tree with this listing, if there is a row. -/
def ofRows? (rows : List Row) : Option ParseTree :=
  match rows, rows.foldr addRow [] with
  | first :: _, (_, root) :: _ => some { root := root, hasError := first.hasError }
  | _, _ => none

end ParseTree

end WidthCheck
