import WidthCheck.ParseTree.Source

/-!
# Quoted texts

Lowering reads most of a parse tree by its shape, and the text of a node only where the node is a
word, a name, the spelling of a type or a bound. These are the quoted nodes. Two sources that differ
only inside comments, and have their lines in common, give every quoted node outside the comments
the same text and every node the same location.
-/

namespace WidthCheck

/-! ## The nodes of a tree -/

namespace Node

mutual

/-- All nodes of a tree, a parent before its children. -/
def nodes : Node → List Node
  | mk label children => mk label children :: nodesOfAll children

/-- All nodes of a row of trees. -/
def nodesOfAll : List Node → List Node
  | [] => []
  | tree :: rest => tree.nodes ++ nodesOfAll rest

end

theorem mem_nodesOfAll {m : Node} {trees : List Node} :
    m ∈ nodesOfAll trees ↔ ∃ tree ∈ trees, m ∈ tree.nodes := by
  induction trees with
  | nil => simp [nodesOfAll]
  | cons tree rest ih => simp [nodesOfAll, ih]

theorem mem_nodes {m root : Node} :
    m ∈ root.nodes ↔ m = root ∨ ∃ tree ∈ root.children, m ∈ tree.nodes := by
  cases root with
  | mk label children => simp [nodes, mem_nodesOfAll, Node.children]

theorem mem_nodes_self (root : Node) : root ∈ root.nodes := mem_nodes.mpr (.inl rfl)

theorem mem_nodes_of_mem_children {root n c : Node} (hn : n ∈ root.nodes)
    (hc : c ∈ n.children) : c ∈ root.nodes := by
  -- The induction is on the tree: the parent is the root itself or lies in one of its subtrees.
  induction hsize : sizeOf root using Nat.strongRecOn generalizing root with
  | ind size ih =>
    rcases mem_nodes.mp hn with rfl | ⟨tree, htree, hmem⟩
    · exact mem_nodes.mpr (.inr ⟨c, hc, mem_nodes_self c⟩)
    · have hlt : sizeOf tree < size := hsize ▸ sizeOf_lt_of_mem_children htree
      exact mem_nodes.mpr (.inr ⟨tree, htree, ih _ hlt hmem rfl⟩)

theorem mem_nodes_trans {root n m : Node} (hn : n ∈ root.nodes) (hm : m ∈ n.nodes) :
    m ∈ root.nodes := by
  induction hsize : sizeOf n using Nat.strongRecOn generalizing n with
  | ind size ih =>
    rcases mem_nodes.mp hm with rfl | ⟨child, hchild, hmem⟩
    · exact hn
    · have hlt : sizeOf child < size := hsize ▸ sizeOf_lt_of_mem_children hchild
      exact ih _ hlt (mem_nodes_of_mem_children hn hchild) hmem rfl

end Node

/-! ## Quoted nodes -/

namespace Kind

/-- Whether this is a word that is read wherever it stands. -/
def isWord : Kind → Bool
  | typeQualifier | storageClassSpecifier | identifier | typeIdentifier | numberLiteral
  | charLiteral => true
  | _ => false

/-- Whether this defines a type, whose members are walked and whose text is not read. -/
def isDefinition : Kind → Bool
  | classSpecifier | structSpecifier | unionSpecifier | enumSpecifier => true
  | _ => false

/-- Whether this is a declarator that is taken apart. -/
def isLayer : Kind → Bool
  | initDeclarator | parenthesizedDeclarator | attributedDeclarator | pointerDeclarator
  | abstractPointerDeclarator | referenceDeclarator | abstractReferenceDeclarator
  | arrayDeclarator | abstractArrayDeclarator | functionDeclarator
  | abstractFunctionDeclarator => true
  | _ => false

/-- Whether the declarator inside this one is a child without a role. -/
def isWrapper : Kind → Bool
  | parenthesizedDeclarator | attributedDeclarator | referenceDeclarator
  | abstractReferenceDeclarator => true
  | _ => false

/-- Whether the type of this is a specifier, to which a declarator is applied. -/
def hasSpecifier : Kind → Bool
  | typeDefinition | functionDefinition | declaration | fieldDeclaration | parameterDeclaration
  | optionalParameterDeclaration | forRangeLoop | templateInstantiation | typeDescriptor
  | operatorCast => true
  | _ => false

end Kind

/-- Whether the text of a node with this role is always read. -/
def Field.isSpelled : Field → Bool
  | name | scope | size | operator => true
  | _ => false

namespace Node

/-- Whether the type below this node is a specifier. What stands for a type may be any node. -/
def hasSpecifier (n : Node) : Bool := n.kind.hasSpecifier || n.label.field == some .type

/-- Whether the text of a child is read for the role it has. -/
def quotes (n c : Node) : Bool :=
  match c.label.field with
  | some .type => n.hasSpecifier && !c.kind.isDefinition
  | some .defaultType => !c.kind.isDefinition
  | some .declarator => !c.kind.isLayer
  | some role => role.isSpelled
  | none => false

/-- Whether the text of a child is read for the place it has. -/
def quotesAt (n c : Node) : Bool :=
  n.kind.isWrapper && !c.kind.isLayer ||
    n.kind == .trailingReturnType && c.kind != .typeDescriptor && !c.kind.isDefinition &&
      !(c.kind.isLayer && c.kind.isAbstract)

/-- The nodes of a tree whose text is read. -/
def quoted (root : Node) : List Node :=
  root.nodes.filter (·.kind.isWord) ++
    root.nodes.flatMap fun n => n.children.filter fun c => n.quotes c || n.quotesAt c

theorem role_of_field? {n c : Node} {f : Field} (hc : n.field? f = some c) :
    c.label.field = some f := by
  simpa using List.find?_some hc

theorem hasSpecifier_of_kind {n : Node} {k : Kind} (hkind : n.kind = k)
    (hk : k.hasSpecifier = true) : n.hasSpecifier = true := by
  rw [hasSpecifier, hkind, hk, Bool.true_or]

theorem hasSpecifier_of_role {owner n : Node} (hn : owner.field? .type = some n) :
    n.hasSpecifier = true := by
  rw [hasSpecifier, role_of_field? hn, beq_self_eq_true, Bool.or_true]

theorem hasSpecifier_of_isParameter {n : Node} (hkind : n.kind.isParameter = true) :
    n.hasSpecifier = true := by
  unfold Kind.isParameter at hkind
  split at hkind
  · rename_i hparameter
    exact hasSpecifier_of_kind hparameter rfl
  · rename_i hparameter
    exact hasSpecifier_of_kind hparameter rfl
  · cases hkind

theorem mem_quoted_of_isWord {root n : Node} (hn : n ∈ root.nodes) (hword : n.kind.isWord = true) :
    n ∈ root.quoted :=
  List.mem_append_left _ (List.mem_filter.mpr ⟨hn, hword⟩)

theorem mem_quoted_of_quotes {root n c : Node} (hn : n ∈ root.nodes) (hc : c ∈ n.children)
    (hquotes : (n.quotes c || n.quotesAt c) = true) : c ∈ root.quoted :=
  List.mem_append_right _
    (List.mem_flatMap.mpr ⟨n, hn, List.mem_filter.mpr ⟨hc, hquotes⟩⟩)

/-- The parts of a tree in which declarations stand side by side: the file and the bodies of
namespaces and records. -/
def bodies (root : Node) : List Node :=
  root :: (root.nodes.filter fun n => n.kind == .namespaceDefinition || n.kind == .classSpecifier ||
    n.kind == .structSpecifier || n.kind == .unionSpecifier).filterMap (·.field? .body)

/-- Whether a node is a comment. Text that cannot be parsed may stand anywhere too, but is none. -/
def isComment (n : Node) : Bool := n.label.isExtra && n.kind == .other "comment"

/-- Where the comments between declarations stand. -/
def bodyComments (root : Node) : List Span :=
  root.bodies.flatMap fun body => (body.children.filter isComment).map span

end Node

/-! ## Sources that differ in comments -/

namespace Span

/-- Whether an offset lies in a range. -/
def Contains (span : Span) (offset : Nat) : Prop := span.start ≤ offset ∧ offset < span.stop

instance (span : Span) (offset : Nat) : Decidable (span.Contains offset) :=
  inferInstanceAs (Decidable (_ ∧ _))

/-- Two ranges with no offset in common, one before the other. -/
def Disjoint (span other : Span) : Prop := span.stop ≤ other.start ∨ other.stop ≤ span.start

instance (span other : Span) : Decidable (span.Disjoint other) :=
  inferInstanceAs (Decidable (_ ∨ _))

end Span

namespace Source

/-- Two sources of one length with their line feeds at the same offsets. -/
def SameLines (src src' : Source) : Prop :=
  src.bytes.toList.map (· == Text.lineFeed) = src'.bytes.toList.map (· == Text.lineFeed)

instance (src src' : Source) : Decidable (src.SameLines src') :=
  inferInstanceAs (Decidable (_ = _))

/-- Two sources whose bytes are the same at every offset outside some ranges. -/
def DifferOnlyIn (spans : List Span) (src src' : Source) : Prop :=
  ∀ offset < src.bytes.size, (∀ span ∈ spans, ¬span.Contains offset) →
    src.bytes[offset]? = src'.bytes[offset]?

instance (spans : List Span) (src src' : Source) : Decidable (DifferOnlyIn spans src src') :=
  inferInstanceAs (Decidable (∀ offset < src.bytes.size,
    (∀ span ∈ spans, ¬span.Contains offset) → src.bytes[offset]? = src'.bytes[offset]?))

variable {src src' : Source}

theorem SameLines.size_eq (h : SameLines src src') : src.bytes.size = src'.bytes.size := by
  simpa using congrArg List.length h

-- What is in front of an offset has the same line feeds.
theorem SameLines.take (h : SameLines src src') (offset : Nat) :
    (src.bytes.extract 0 offset).toList.map (· == Text.lineFeed) =
      (src'.bytes.extract 0 offset).toList.map (· == Text.lineFeed) := by
  have htake := congrArg (List.take offset) h
  simpa [List.map_take] using htake

theorem lineAt_eq_count (src : Source) (offset : Nat) :
    src.lineAt offset =
      ((src.bytes.extract 0 offset).toList.map (· == Text.lineFeed)).count true + 1 := by
  rw [lineAt, ← Array.count_toList, List.count_eq_countP, List.count_eq_countP, List.countP_map]
  congr 2
  funext byte
  simp

theorem columnAt_eq_takeWhile (src : Source) (offset : Nat) :
    src.columnAt offset =
      (((src.bytes.extract 0 offset).toList.map (· == Text.lineFeed)).reverse.takeWhile
        (!·)).length + 1 := by
  rw [columnAt, ← List.map_reverse, List.takeWhile_map, List.length_map]
  rfl

theorem SameLines.lineAt_eq (h : SameLines src src') (offset : Nat) :
    src.lineAt offset = src'.lineAt offset := by
  rw [lineAt_eq_count, lineAt_eq_count, h.take offset]

theorem SameLines.columnAt_eq (h : SameLines src src') (offset : Nat) :
    src.columnAt offset = src'.columnAt offset := by
  rw [columnAt_eq_takeWhile, columnAt_eq_takeWhile, h.take offset]

theorem SameLines.location_eq (h : SameLines src src') (node : Node) :
    src.location node = src'.location node := by
  unfold location
  rw [h.lineAt_eq, h.columnAt_eq]

theorem DifferOnlyIn.slice_eq {spans : List Span} (h : DifferOnlyIn spans src src')
    (hsize : src.bytes.size = src'.bytes.size) {span : Span}
    (hdisjoint : ∀ other ∈ spans, span.Disjoint other) : src.slice span = src'.slice span := by
  have hbytes : src.bytes.extract span.start span.stop =
      src'.bytes.extract span.start span.stop := by
    apply Array.ext_getElem?
    intro i
    rw [Array.getElem?_extract, Array.getElem?_extract, hsize]
    split
    · rename_i hi
      refine h _ (by omega) fun other hother hcontains => ?_
      unfold Span.Contains at hcontains
      rcases hdisjoint other hother with hbefore | hafter <;> omega
    · rfl
  unfold slice
  rw [hbytes]

end Source

end WidthCheck
