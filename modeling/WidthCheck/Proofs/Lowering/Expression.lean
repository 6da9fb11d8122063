import WidthCheck.Proofs.Lowering.Substitution
import WidthCheck.Proofs.ParseTree.Quotation

/-!
# Expressions

An expression is a part of a tree in which nothing is declared. The types written in it define
nothing either, so that lowering them visits no node and does not look at the state.
-/

namespace WidthCheck

/-! ## The shape of an expression -/

/-- Whether this declares something, or has declarations of its own. -/
def Kind.isDeclaring : Kind → Bool
  | namespaceDefinition | classSpecifier | structSpecifier | unionSpecifier | enumSpecifier
  | typeDefinition | aliasDeclaration | templateDeclaration | templateInstantiation
  | functionDefinition | declaration | fieldDeclaration | forRangeLoop | catchClause
  | lambdaExpression => true
  | _ => false

/-- Whether a destination of a cast can be written like this. -/
def Kind.isDestination : Kind → Bool
  | typeDescriptor | identifier | typeIdentifier => true
  | _ => false

namespace Node

/-- Nothing is declared in a tree. -/
def IsExpression (root : Node) : Prop := ∀ n ∈ root.nodes, n.kind.isDeclaring = false

mutual

/-- The number of levels that are walked in a tree: those below a comment or a fixed token do not
count. -/
def height : Node → Nat
  | mk _ children => heightOfAll children + 1

/-- The number of levels that are walked below some children. -/
def heightOfAll : List Node → Nat
  | [] => 0
  | tree :: rest =>
      if tree.label.isNamed && !tree.label.isExtra then max tree.height (heightOfAll rest)
      else heightOfAll rest

end

mutual

/-- The nodes that are reached through children that stand for rules of the grammar, a parent
before its children. -/
def reached : Node → List Node
  | mk label children => mk label children :: reachedOfAll children

/-- The nodes reached from the children that stand for rules of the grammar. -/
def reachedOfAll : List Node → List Node
  | [] => []
  | tree :: rest =>
      if tree.label.isNamed && !tree.label.isExtra then tree.reached ++ reachedOfAll rest
      else reachedOfAll rest

end

theorem height_lt_of_mem_named {c n : Node} (h : c ∈ n.named) : c.height < n.height := by
  cases n with
  | mk label children =>
    suffices c.height ≤ heightOfAll children by
      rw [height]
      omega
    obtain ⟨hmem, hnamed⟩ := List.mem_filter.mp h
    clear h
    change c ∈ children at hmem
    induction children with
    | nil => cases hmem
    | cons first rest ih =>
      rw [heightOfAll]
      rcases List.mem_cons.mp hmem with rfl | hmem
      · rw [if_pos hnamed]
        omega
      · have := ih hmem
        split <;> omega

theorem reached_eq (n : Node) : n.reached = n :: n.named.flatMap reached := by
  cases n with
  | mk label children =>
    rw [reached]
    show _ = mk label children :: (children.filter _).flatMap reached
    congr 1
    induction children with
    | nil => rfl
    | cons tree rest ih =>
      rw [reachedOfAll, ih, List.filter_cons]
      split <;> rfl

namespace IsExpression

variable {n c : Node}

theorem not_isDeclaring (h : n.IsExpression) : n.kind.isDeclaring = false := h n (mem_nodes_self n)

theorem child (h : n.IsExpression) (hc : c ∈ n.children) : c.IsExpression :=
  fun m hm => h m (mem_nodes.mpr (.inr ⟨c, hc, hm⟩))

theorem field (h : n.IsExpression) {f : Field} (hc : n.field? f = some c) : c.IsExpression :=
  h.child (mem_children_of_field? hc)

theorem of_mem_named (h : n.IsExpression) (hc : c ∈ n.named) : c.IsExpression :=
  h.child (mem_children_of_mem_named hc)

theorem innermostName (h : n.IsExpression) : n.innermostName.IsExpression := by
  fun_induction Node.innermostName n with
  | case1 n _ name hname ih => exact ih (h.field hname)
  | case2 | case3 => exact h

end IsExpression

end Node

/-! ## Types in which nothing is defined -/

namespace Source

open Node

variable (src : Source) {n : Node}

theorem isPlain_specifier (h : n.IsExpression) : (src.specifier n).isPlain = true := by
  have hkind := h.not_isDeclaring
  unfold specifier
  split <;> first | rfl | skip
  · split <;> rfl
  · split <;> rfl
  all_goals
    rename_i heq
    rw [heq] at hkind
    cases hkind

theorem isPlain_specifierOf (h : n.IsExpression) : (src.specifierOf n).isPlain = true := by
  unfold specifierOf
  split
  · rename_i type htype
    exact src.isPlain_specifier (h.field htype)
  · rfl

/-- Nothing is defined in the declarators below a node. -/
def IsPlainBelow (n : Node) : Prop :=
  ∀ c, sizeOf c < sizeOf n → c.IsExpression → (src.declarator c).isPlain = true

variable {src}

theorem IsPlainBelow.of_le {m : Node} (h : src.IsPlainBelow n) (hle : sizeOf m ≤ sizeOf n) :
    src.IsPlainBelow m :=
  fun c hlt hc => h c (Nat.lt_of_lt_of_le hlt hle) hc

theorem IsPlainBelow.child (hbelow : src.IsPlainBelow n) (h : n.IsExpression) {c : Node}
    (hc : c ∈ n.children) : (src.declarator c).isPlain = true :=
  hbelow c (sizeOf_lt_of_mem_children hc) (h.child hc)

theorem IsPlainBelow.declaratorField (hbelow : src.IsPlainBelow n) (h : n.IsExpression) :
    (src.declaratorField n).isPlain = true := by
  rw [Source.declaratorField]
  split
  · rename_i inner hinner
    exact hbelow.child h (mem_children_of_field? hinner)
  · rfl

theorem IsPlainBelow.typeDescriptor (hbelow : src.IsPlainBelow n) (h : n.IsExpression) :
    (src.typeDescriptor n).isPlain = true := by
  rw [Source.typeDescriptor]
  exact Bool.and_eq_true_iff.mpr ⟨src.isPlain_specifierOf h, hbelow.declaratorField h⟩

theorem IsPlainBelow.trailingType (hbelow : src.IsPlainBelow n) (h : n.IsExpression) :
    (src.trailingType n).isPlain = true := by
  rw [Source.trailingType]
  split
  · rename_i descriptor hfound
    have hmem := List.mem_of_find?_eq_some hfound
    have hlt := sizeOf_lt_of_mem_children (mem_children_of_mem_named hmem)
    exact (hbelow.of_le (Nat.le_of_lt hlt)).typeDescriptor (h.of_mem_named hmem)
  · apply Bool.and_eq_true_iff.mpr
    constructor
    · split
      · rename_i c hfound
        exact src.isPlain_specifier (h.of_mem_named (List.mem_of_find?_eq_some hfound))
      · rfl
    · split
      · rename_i c hfound
        have hmem := List.mem_reverse.mp (List.mem_of_find?_eq_some hfound)
        exact hbelow.child h (mem_children_of_mem_named hmem)
      · rfl

-- The layers of a declarator are read from below it, and the target of a conversion from its name.
theorem IsPlainBelow.declarator (hbelow : src.IsPlainBelow n) (h : n.IsExpression) :
    (src.declarator n).isPlain = true := by
  have hfield := hbelow.declaratorField h
  rw [Source.declarator]
  split
  case h_1 => exact hfield
  case h_2 | h_3 =>
    split
    · rename_i inner hhead
      exact hbelow.child h (mem_children_of_head?_named hhead)
    · rfl
  case h_4 | h_5 | h_8 | h_9 => exact hfield
  case h_6 | h_7 =>
    rw [Declarator.isPlain]
    split
    · rename_i inner hlast
      exact hbelow.child h (mem_children_of_getLast?_named hlast)
    · rfl
  case h_10 | h_11 =>
    split
    · rename_i result hresult
      have hmem := mem_children_of_ofKind? hresult
      have hle := Nat.le_of_lt (sizeOf_lt_of_mem_children hmem)
      exact Bool.and_eq_true_iff.mpr ⟨(hbelow.of_le hle).trailingType (h.child hmem), hfield⟩
    · exact hfield
  case h_12 => exact hbelow.typeDescriptor h
  case h_13 =>
    split
    · exact (hbelow.of_le (sizeOf_innermostName_le n)).typeDescriptor h.innermostName
    · rfl
  case h_14 => rfl

theorem isPlainBelow (src : Source) (n : Node) : src.IsPlainBelow n := by
  induction hsize : sizeOf n using Nat.strongRecOn generalizing n with
  | ind size ih =>
    intro c hlt hc
    exact (ih (sizeOf c) (hsize ▸ hlt) c rfl).declarator hc

theorem isPlain_typeDescriptor (src : Source) (h : n.IsExpression) :
    (src.typeDescriptor n).isPlain = true :=
  (src.isPlainBelow n).typeDescriptor h

end Source

namespace Lowering

/-! ## Lowering such types

The step neither visits a node nor looks at the state, so that its outcome is a value of its own.
-/

section

variable (scope : Scope)

theorem lowerSpecifier_of_isPlain {specifier : Specifier} (h : specifier.isPlain = true) :
    ∃ ty, ∀ visit, lowerSpecifier visit scope specifier = pure ty := by
  cases specifier with
  | definition node name => cases h
  | _ => exact ⟨_, fun _ => rfl⟩

mutual

theorem applyDeclarator_of_isPlain (declarator : Declarator) (h : declarator.isPlain = true)
    (ty : QualType) (params : Option Node) :
    ∃ declared, ∀ visit, applyDeclarator visit scope declarator ty params = pure declared := by
  cases declarator with
  | anonymous | named node => exact ⟨_, fun _ => rfl⟩
  | pointer quals inner | reference rvalue inner | array bound inner | function params inner =>
    exact applyDeclarator_of_isPlain inner h _ _
  | trailing params result inner =>
    obtain ⟨hresult, hinner⟩ := Bool.and_eq_true_iff.mp h
    by_cases hauto : ty.isAuto = true
    · obtain ⟨written, hwritten⟩ := lowerWritten_of_isPlain result hresult
      obtain ⟨declared, hdeclared⟩ :=
        applyDeclarator_of_isPlain inner hinner written.ty.functionReturning params
      refine ⟨declared, fun visit => ?_⟩
      rw [applyDeclarator, if_pos hauto, hwritten, pure_bind, hdeclared]
    · obtain ⟨declared, hdeclared⟩ :=
        applyDeclarator_of_isPlain inner hinner ty.functionReturning params
      refine ⟨declared, fun visit => ?_⟩
      rw [applyDeclarator, if_neg hauto, hdeclared]
  | conversion name target =>
    obtain ⟨written, hwritten⟩ := lowerWritten_of_isPlain target h
    refine ⟨{ written with name := some name }, fun visit => ?_⟩
    rw [applyDeclarator, hwritten, pure_bind]

theorem lowerWritten_of_isPlain (written : WrittenType) (h : written.isPlain = true) :
    ∃ declared, ∀ visit, lowerWritten visit scope written = pure declared := by
  cases written with
  | mk specifier quals declarator =>
    obtain ⟨hspecifier, hdeclarator⟩ := Bool.and_eq_true_iff.mp h
    obtain ⟨base, hbase⟩ := lowerSpecifier_of_isPlain scope hspecifier
    obtain ⟨declared, hdeclared⟩ :=
      applyDeclarator_of_isPlain declarator hdeclarator (base.withQuals quals) none
    refine ⟨declared, fun visit => ?_⟩
    rw [lowerWritten, hbase, pure_bind, hdeclared]

end

theorem lowerDescriptor_of_isExpression {node : Node} (h : node.IsExpression) :
    ∃ ty, ∀ visit, lowerDescriptor visit scope node = pure ty := by
  obtain ⟨declared, hdeclared⟩ :=
    lowerWritten_of_isPlain scope _ (scope.source.isPlain_typeDescriptor h)
  refine ⟨declared.ty, fun visit => ?_⟩
  rw [lowerDescriptor, hdeclared, pure_bind]

/-- The destination of a cast when nothing is visited on the way. -/
def Scope.destination? (written : Node) : Option QualType :=
  (castDestination (fun _ _ => pure ()) scope written {}).1

theorem castDestination_of_isExpression {written : Node} (h : written.IsExpression)
    (visit : Scope → Node → Lowering Unit) :
    castDestination visit scope written = pure (scope.destination? written) := by
  obtain ⟨ty, hty⟩ := lowerDescriptor_of_isExpression scope h
  unfold Scope.destination? castDestination
  generalize written.kind = kind
  split
  · rw [hty, hty]
    rfl
  all_goals rfl

theorem isSome_destination? {written : Node} :
    (scope.destination? written).isSome = written.kind.isDestination := by
  unfold Scope.destination? castDestination
  generalize written.kind = kind
  split
  · rfl
  · rfl
  · rfl
  · unfold Kind.isDestination
    split <;> first | rfl | contradiction

end

end Lowering

end WidthCheck
