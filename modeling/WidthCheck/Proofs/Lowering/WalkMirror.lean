import WidthCheck.Proofs.Lowering.TypeMirror

/-!
# The walk is mirrored

Every visitor of a traversal mirrors the visitor of the walk and ends where it began, provided that
the traverser below it does.
-/

namespace WidthCheck.Lowering.Origins

variable {K : Origins} {nesting : Nat} {p : Stand} {hands : Traverser} {below : Walker}
  {node : Node}

variable (hbelow : K.Hands nesting hands below)

section Declarations

include hbelow

theorem visitAll_mirrors {nodes : List Node}
    (hnodes : ∀ node ∈ nodes, (K.at p.pending).Within node) :
    K.Mirrors nesting p p (Traversal.visitAll hands nodes) (visitAll below (K.view p) nodes)
      fun _ => True :=
  .forM nodes fun node hnode => hbelow.visit p node (hnodes node hnode)

theorem visitNamed_mirrors (hnode : (K.at p.pending).Within node) :
    K.Mirrors nesting p p (Traversal.visitAll hands node.named)
      (visitAll below (K.view p) node.named) fun _ => True :=
  visitAll_mirrors hbelow fun _ hchild => hnode.named hchild

theorem visitOption_mirrors {child : Option Node}
    (hchild : ∀ node ∈ child, (K.at p.pending).Within node) :
    K.Mirrors nesting p p (Traversal.visitField hands child) (visitField below (K.view p) child)
      fun _ => True := by
  cases child with
  | none => exact .pure trivial
  | some node => exact hbelow.visit p node (hchild node rfl)

theorem visitField_mirrors (hnode : (K.at p.pending).Within node) (field : Field) :
    K.Mirrors nesting p p (Traversal.visitField hands (node.field? field))
      (visitField below (K.view p) (node.field? field)) fun _ => True :=
  visitOption_mirrors hbelow fun _ hchild => hnode.field hchild

theorem visitNamespace_mirrors (hnode : (K.at p.pending).Within node) :
    K.Mirrors nesting p p (Traversal.visitNamespace hands node)
      (visitNamespace below (K.view p) node) fun _ => True := by
  refine .here ?_
  unfold visitNamespace
  simp only [Scope.reading_source, hnode.map_text_eq (f := .name) rfl]
  refine .enterContext fun context => ?_
  refine .restore ?_ (leaveContext_mirrors context)
  cases hbody : node.field? .body with
  | none => exact .pure trivial
  | some body => exact visitNamed_mirrors hbelow (hnode.field hbody)

-- The block, the record and the context are left in the order opposite to that in which they were
-- entered.
theorem visitRecordBody_mirrors (hnode : (K.at p.pending).Within node) (name : String) :
    K.Mirrors nesting p p
      (do
        let saved ← Traversal.enterContext .record name .undeclared
        Traversal.pushRecord name
        Traversal.pushFrame
        Traversal.visitAll hands node.named
        Traversal.popFrame
        Traversal.popRecord
        Traversal.setContext saved)
      (do
        let inner ← enterContext (K.view p) .record name .undeclared
        withFrame (visitAll below { inner with records := name :: (K.view p).records } node.named))
      fun _ => True := by
  refine .enterContext fun context => .first (pushRecord_mirrors name) ?_
  refine .framedThen (visitNamed_mirrors hbelow hnode) (.first (popRecord_mirrors name) ?_)
  exact leaveContext_mirrors context

theorem visitRecord_mirrors (hnode : (K.at p.pending).Within node) :
    K.Mirrors nesting p p (Traversal.visitRecord hands node) (visitRecord below (K.view p) node)
      fun _ => True := by
  unfold Traversal.visitRecord visitRecord
  cases hbody : node.field? .body with
  | none => exact .pure trivial
  | some body =>
    refine .here ?_
    simp only [Scope.reading_source, hnode.map_simpleName_eq (f := .name) rfl]
    have hopen := fun name => visitRecordBody_mirrors hbelow (hnode.field hbody) name
    refine .branch (fun _ => ?_) fun _ => hopen _
    exact .bind (.onState rfl fun _ => ⟨rfl, .inl rfl, rfl, rfl⟩) fun _ _ => hopen _

theorem visitEnumerators_mirrors (hnode : (K.at p.pending).Within node) :
    K.Mirrors nesting p p
      (node.named.forM fun enumerator => Traversal.visitField hands (enumerator.field? .value))
      (node.named.forM fun enumerator =>
        visitField below (K.view p) (enumerator.field? .value)) fun _ => True :=
  .forM _ fun _ henumerator => visitField_mirrors hbelow (hnode.named henumerator) .value

theorem visitEnum_mirrors (hnode : (K.at p.pending).Within node) :
    K.Mirrors nesting p p (Traversal.visitEnum hands node) (visitEnum below (K.view p) node)
      fun _ => True := by
  have hadd : ∀ name ∈ node.field? .name, ∀ isScoped,
      K.Mirrors nesting p p
        (Traversal.onState fun scope => addEnum (scope.source.collapsed name) isScoped)
        (addEnum ((K.view p).source.collapsed name) isScoped) fun _ => True := by
    intro name hname isScoped
    refine .onState ?_ fun _ => ⟨rfl, .inl rfl, rfl, rfl⟩
    simp only [Scope.reading_source, (hnode.spelled rfl hname).collapsed_eq]
  unfold Traversal.visitEnum visitEnum
  cases hbody : node.field? .body with
  | none =>
    cases hname : node.field? .name with
    | none => exact .pure trivial
    | some name => exact .bind (hadd name hname _) fun _ _ => .pure trivial
  | some body =>
    have henumerators := visitEnumerators_mirrors hbelow (hnode.field hbody)
    cases hname : node.field? .name with
    | none => exact henumerators
    | some name => exact .bind (hadd name hname _) fun _ _ => henumerators

theorem visitTypedefDeclarator_mirrors (hnode : (K.at p.pending).Readable node)
    (base : QualType) :
    K.Mirrors nesting p p (Traversal.visitTypedefDeclarator hands base node)
      (visitTypedefDeclarator below (K.view p) base node) fun _ => True := by
  refine .bind (applyNode_mirrors hbelow (by simpa using hnode) base)
    fun declared hdeclared => ?_
  cases hname : declared.name with
  | none => exact .pure trivial
  | some name =>
    refine .onState ?_ fun _ => ⟨rfl, .inl rfl, rfl, rfl⟩
    simp only [Scope.reading_source, (hdeclared.name name hname).2]

theorem visitTypedef_mirrors (hnode : (K.at p.pending).Within node)
    (howner : node.hasSpecifier = true) :
    K.Mirrors nesting p p (Traversal.visitTypedef hands node) (visitTypedef below (K.view p) node)
      fun _ => True :=
  .bind (baseType_mirrors hbelow hnode howner) fun base _ =>
    .forM _ fun _ hmem =>
      visitTypedefDeclarator_mirrors hbelow (hnode.readable_of_fieldAll hmem) base

theorem visitAlias_mirrors (hnode : (K.at p.pending).Within node) :
    K.Mirrors nesting p p (Traversal.visitAlias hands node) (visitAlias below (K.view p) node)
      fun _ => True := by
  unfold Traversal.visitAlias visitAlias
  cases hname : node.field? .name with
  | none => exact .pure trivial
  | some name =>
    cases htype : node.field? .type with
    | none => exact .pure trivial
    | some type =>
      refine .bind (lowerDescriptor_mirrors hbelow (hnode.field htype)
        (Node.hasSpecifier_of_role htype)) fun ty _ => ?_
      refine .onState ?_ fun _ => ⟨rfl, .inl rfl, rfl, rfl⟩
      simp only [Scope.reading_source, (hnode.spelled rfl hname).2]

end Declarations

/-! ## Functions and their parameters -/

theorem declare_quiet (scope : Scope) (name : String) (kind : ValueKind) (ty : QualType)
    (location : Option Position) (s : State) :
    Quiet s (declare scope name kind ty location s).2 := by
  unfold declare
  split
  · rw [bind_run, declareName_run]
    exact ⟨List.length_modifyHead, .inl rfl, rfl, rfl⟩
  · exact ⟨rfl, .inl rfl, rfl, rfl⟩

theorem declare_mirrors {name : Scope → String} (kind : ValueKind) (ty : QualType)
    {location : Scope → Option Position}
    (hname : name (p.scope.reading K.pair.left) = name (K.view p))
    (hlocation : location (p.scope.reading K.pair.left) = location (K.view p)) :
    K.Mirrors nesting p p
      (Traversal.onState fun scope => declare scope (name scope) kind ty (location scope))
      (declare (K.view p) (name (K.view p)) kind ty (location (K.view p))) fun _ => True := by
  refine .onState ?_ fun s => declare_quiet _ _ _ _ _ s
  rw [hname, hlocation]
  rfl

section Functions

include hbelow

theorem visitParameter_mirrors (hnode : (K.at p.pending).Within node) (kind : ValueKind) :
    K.Mirrors nesting p p (Traversal.visitParameter hands kind node)
      (visitParameter below (K.view p) kind node) fun _ => True := by
  refine .branch (fun _ => .pure trivial) fun hkind => ?_
  have howner := Node.hasSpecifier_of_isParameter (n := node) (by simpa using hkind)
  refine .bind (lowerDeclaration_mirrors hbelow hnode howner) fun declared hdeclared => ?_
  have hdefault : K.Mirrors nesting p p
      (do
        Traversal.visitField hands (node.field? .defaultValue)
        return some declared.ty.decay)
      (do
        visitField below (K.view p) (node.field? .defaultValue)
        return some declared.ty.decay) fun _ => True :=
    .bind (visitField_mirrors hbelow hnode .defaultValue) fun _ _ => .pure trivial
  refine .branch (fun _ => .pure trivial) fun _ => ?_
  cases hname : declared.name with
  | none =>
    refine .bind (declare_mirrors kind _ rfl ?_) fun _ _ => hdefault
    exact K.pair.location_eq node
  | some name =>
    refine .bind (declare_mirrors kind _ ?_ ?_) fun _ _ => hdefault
    · exact (hdeclared.name name hname).2
    · exact K.pair.location_eq name

theorem visitParameterList_mirrors {list : Option Node}
    (hlist : ∀ node ∈ list, (K.at p.pending).Within node) (kind : ValueKind) :
    K.Mirrors nesting p p (Traversal.visitParameterList hands kind list)
      (visitParameterList below (K.view p) kind list) fun _ => True := by
  cases list with
  | none => exact .pure trivial
  | some list =>
    refine .bind (.mapM _ fun param hparam => ?_) fun _ _ => .pure trivial
    exact visitParameter_mirrors hbelow ((hlist list rfl).named hparam) kind

omit hbelow in
-- The kind depends on the name, on the scope written before it, and on the state.
theorem functionKind_mirrors (hnode : (K.at p.pending).Shared node) :
    K.Mirrors nesting p p (Traversal.onState (functionKind · node)) (functionKind (K.view p) node)
      fun _ => True := by
  refine .onState ?_ fun s => ?_
  · unfold functionKind
    simp only [Scope.reading_source, hnode.innermostName.simpleName_eq,
      hnode.1.map_simpleName_eq (f := .scope) rfl]
    rfl
  · obtain ⟨kind, hrun, -⟩ := functionKind_run (K.view p) node s
    rw [hrun]
    exact ⟨rfl, .inl rfl, rfl, rfl⟩

omit hbelow in
-- What is taken from the traversal was waiting where it stands; the walk goes on in the scope of
-- the new context.
theorem Mirrors.openFunction {α : Type} {q : Stand} {post : α → Prop}
    (hnode : (K.at p.pending).Shared node) {returnType : QualType}
    {next : Nat × Option (List TemplateParam) → Traverse α}
    {walkNext : Scope × Option (List TemplateParam) → Lowering α}
    (h : ∀ context template, template = p.pending ∨ template = none →
      K.Mirrors nesting (p.inContext context) q (next (p.scope.context, template))
        (walkNext (K.view (p.inContext context), template)) post) :
    K.Mirrors nesting p q (Traversal.openFunction node returnType >>= next)
      (Lowering.openFunction (K.view p) node returnType >>= walkNext) post := by
  unfold Traversal.openFunction Lowering.openFunction
  simp only [bind_assoc, pure_bind]
  refine .bind takePendingTemplate_mirrors fun template htemplate => ?_
  refine .bind (.onState rfl fun _ => ⟨rfl, .inl rfl, rfl, rfl⟩) fun specialization _ => ?_
  refine .bind (.onState rfl fun _ => ⟨rfl, .inl rfl, rfl, rfl⟩) fun args _ => .here ?_
  simp only [Scope.reading_source, hnode.entityName_eq]
  refine .bind (functionKind_mirrors hnode) fun kind _ => .enterContext fun context => ?_
  refine .bind (.onState ?_ fun _ => ⟨rfl, .inl rfl, rfl, rfl⟩) fun _ _ =>
    h context template htemplate
  simp only [Scope.reading_source, K.pair.location_eq]
  rfl

omit hbelow in
theorem registerFunction_mirrors {owner : Node} (parent : Nat) (paramTypes : List QualType)
    (hnode : (K.at p.pending).Shared node) {template : Option (List TemplateParam)}
    (horigin : ∀ params ∈ template, K.Holds owner params) :
    K.Mirrors nesting p p (Traversal.registerFunction parent owner node paramTypes template)
      (registerFunction { K.view p with context := parent } owner node paramTypes template)
      fun _ => True := by
  cases template with
  | none => exact .pure trivial
  | some params =>
    refine registerTemplate_mirrors ?_ (horigin params rfl)
    simp only [Scope.reading_source, hnode.simpleName_eq]
    rfl

theorem visitFunctionParts_mirrors (hnode : (K.at p.pending).Within node) {nameNode : Node}
    (hname : (K.at p.pending).Shared nameNode) {params : Option Node}
    (hparams : ∀ list ∈ params, (K.at p.pending).Within list)
    {template : Option (List TemplateParam)} (htemplate : template = p.pending ∨ template = none)
    (parent : Nat) :
    K.Mirrors nesting p p
      (Traversal.visitFunctionParts hands parent node nameNode params template)
      (do
        let paramTypes ← visitParameterList below (K.view p) .parameter params
        registerFunction { K.view p with context := parent } node nameNode paramTypes template
        if !(K.view p).skipBodies then
          visitAll below (K.view p) (node.named.filter isFunctionBody)) fun _ => True := by
  have horigin : ∀ params ∈ template, K.Holds node params := by
    rcases htemplate with rfl | rfl
    · exact hnode.2
    · simp
  refine .bind (visitParameterList_mirrors hbelow hparams .parameter) fun paramTypes _ => ?_
  refine .bind (registerFunction_mirrors parent paramTypes hname horigin) fun _ _ => .here ?_
  refine .branch (fun _ => ?_) fun _ => .pure trivial
  exact visitAll_mirrors hbelow fun _ hmem => hnode.named (List.mem_filter.mp hmem).1

theorem visitFunction_mirrors (hnode : (K.at p.pending).Within node) {declared : Declared}
    (hdeclared : (K.at p.pending).DeclaredShared declared) (returnType : QualType) :
    K.Mirrors nesting p p (Traversal.visitFunction hands node declared returnType)
      (visitFunction below (K.view p) node declared returnType) fun _ => True := by
  unfold Traversal.visitFunction visitFunction
  cases hname : declared.name with
  | none => exact .pure trivial
  | some nameNode =>
    have hshared := hdeclared.name nameNode hname
    refine .openFunction hshared fun context template htemplate => ?_
    refine .framedThen ?_ (leaveContext_mirrors context)
    exact visitFunctionParts_mirrors (p := (p.inContext context).inBlock) hbelow hnode hshared
      hdeclared.params htemplate p.scope.context

theorem visitFunctionDefinition_mirrors (hnode : (K.at p.pending).Within node)
    (howner : node.hasSpecifier = true) :
    K.Mirrors nesting p p (Traversal.visitFunctionDefinition hands node)
      (visitFunctionDefinition below (K.view p) node) fun _ => True := by
  refine .bind (lowerDeclaration_mirrors hbelow hnode howner) fun declared hdeclared => ?_
  cases declared.ty with
  | base kind name quals => exact visitNamed_mirrors hbelow hnode
  | layer layer ty quals =>
    cases layer with
    | function => exact visitFunction_mirrors hbelow hnode hdeclared ty
    | _ => exact visitNamed_mirrors hbelow hnode

end Functions

/-! ## Declarations -/

theorem isStatic_eq (hnode : (K.at p.pending).Within node) :
    isStatic K.pair.left node = isStatic K.pair.right node := by
  unfold isStatic
  rw [Bool.eq_iff_iff, List.any_eq_true, List.any_eq_true]
  refine exists_congr fun c => and_congr_right fun hc => ?_
  rw [Bool.and_eq_true, Bool.and_eq_true, beq_iff_eq]
  refine and_congr_right fun hkind => ?_
  rw [((hnode.child hc).word hkind rfl).2]

theorem splitInitializer_within {owner : Node} (howner : (K.at p.pending).Within owner)
    (hnode : (K.at p.pending).Readable node) :
    (∀ target ∈ (splitInitializer owner node).1, (K.at p.pending).Readable target) ∧
      ∀ value ∈ (splitInitializer owner node).2, (K.at p.pending).Within value := by
  unfold splitInitializer
  split
  · exact ⟨fun _ htarget => hnode.1.readable_of_field htarget,
      fun _ hvalue => hnode.1.field hvalue⟩
  · refine ⟨by simpa using hnode, fun value hvalue => ?_⟩
    rcases Option.or_eq_some_iff.mp hvalue with hvalue | ⟨-, hvalue⟩
    · exact howner.field hvalue
    · exact howner.field hvalue

section Declarations

include hbelow

theorem declaratorBase_mirrors {value : Option Node}
    (hvalue : ∀ node ∈ value, (K.at p.pending).Within node) (base : QualType) :
    K.Mirrors nesting p p (Traversal.declaratorBase hands base value)
      (declaratorBase below (K.view p) base value) fun _ => True := by
  refine .branch (fun _ => ?_) fun _ => .pure trivial
  cases value with
  | none => exact .pure trivial
  | some node =>
    refine .bind (hbelow.infer p node (hvalue node rfl)) fun inferred _ => ?_
    cases inferred <;> exact .pure trivial

theorem visitDeclared_mirrors (hnode : (K.at p.pending).Within node) (kind : ValueKind)
    {declared : Declared} (hdeclared : (K.at p.pending).DeclaredShared declared) :
    K.Mirrors nesting p p (Traversal.visitDeclared hands node kind declared)
      (visitDeclared below (K.view p) node kind declared) fun _ => True := by
  have hvalue : ∀ nameNode ∈ declared.name, ∀ ty, K.Mirrors nesting p p
      (Traversal.onState fun scope => declare scope (scope.source.entityName nameNode).1 kind ty
        (scope.source.location (scope.source.entityName nameNode).2))
      (declare (K.view p) ((K.view p).source.entityName nameNode).1 kind ty
        ((K.view p).source.location ((K.view p).source.entityName nameNode).2))
      fun _ => True := by
    intro nameNode hname ty
    have hentity := (hdeclared.name nameNode hname).entityName_eq
    refine declare_mirrors kind ty ?_ ?_
    · simp only [Scope.reading_source, hentity]
    · simp only [Scope.reading_source, hentity, K.pair.location_eq]
  unfold Traversal.visitDeclared visitDeclared
  cases declared.ty with
  | base typeKind name quals =>
    cases hname : declared.name with
    | none => exact .pure trivial
    | some nameNode => exact hvalue nameNode hname _
  | layer layer ty quals =>
    cases layer with
    | function => exact visitFunction_mirrors hbelow hnode hdeclared ty
    | _ =>
      cases hname : declared.name with
      | none => exact .pure trivial
      | some nameNode => exact hvalue nameNode hname _

theorem visitDeclarator_mirrors {owner : Node} (howner : (K.at p.pending).Within owner)
    (hnode : (K.at p.pending).Readable node) (kind : ValueKind) (base : QualType) :
    K.Mirrors nesting p p (Traversal.visitDeclarator hands owner kind base node)
      (visitDeclarator below (K.view p) owner kind base node) fun _ => True := by
  obtain ⟨htarget, hvalue⟩ := splitInitializer_within howner hnode
  refine .bind (declaratorBase_mirrors hbelow hvalue base) fun base _ => ?_
  refine .bind (applyNode_mirrors hbelow htarget base) fun declared hdeclared => ?_
  exact .bind (visitDeclared_mirrors hbelow howner kind hdeclared) fun _ _ =>
    visitOption_mirrors hbelow hvalue

theorem visitDeclaration_mirrors (hnode : (K.at p.pending).Within node)
    (howner : node.hasSpecifier = true) :
    K.Mirrors nesting p p (Traversal.visitDeclaration hands node)
      (visitDeclaration below (K.view p) node) fun _ => True := by
  refine .bind (baseType_mirrors hbelow hnode howner) fun base _ => .here ?_
  simp only [Scope.reading_source, isStatic_eq hnode]
  refine .bind (.onState rfl fun _ => ⟨rfl, .inl rfl, rfl, rfl⟩) fun context _ => ?_
  exact .forM _ fun _ hmem =>
    visitDeclarator_mirrors hbelow hnode (hnode.readable_of_fieldAll hmem) _ base

end Declarations

/-! ## Statements and expressions with declarations of their own -/

section Statements

include hbelow

theorem visitRangeFor_mirrors (hnode : (K.at p.pending).Within node)
    (howner : node.hasSpecifier = true) :
    K.Mirrors nesting p p (Traversal.visitRangeFor hands node)
      (visitRangeFor below (K.view p) node) fun _ => True := by
  have hinner : (K.at p.inBlock.pending).Within node := hnode
  refine .framed (.bind (visitField_mirrors hbelow hinner .initializer) fun _ _ => ?_)
  refine .bind (lowerDeclaration_mirrors hbelow hinner howner) fun declared hdeclared => ?_
  have hrest : K.Mirrors nesting p.inBlock p.inBlock
      (do
        Traversal.visitField hands (node.field? .right)
        Traversal.visitField hands (node.field? .body))
      (do
        visitField below (K.view p) (node.field? .right)
        visitField below (K.view p) (node.field? .body)) fun _ => True :=
    .bind (visitField_mirrors hbelow hinner .right) fun _ _ =>
      visitField_mirrors hbelow hinner .body
  cases hname : declared.name with
  | none => exact hrest
  | some name =>
    refine .bind (declare_mirrors .var _ ?_ ?_) fun _ _ => hrest
    · exact (hdeclared.name name hname).2
    · exact K.pair.location_eq name

theorem visitCatch_mirrors (hnode : (K.at p.pending).Within node) :
    K.Mirrors nesting p p (Traversal.visitCatch hands node) (visitCatch below (K.view p) node)
      fun _ => True := by
  have hinner : (K.at p.inBlock.pending).Within node := hnode
  refine .framed (.bind (visitParameterList_mirrors hbelow (fun _ hlist => ?_) .var) fun _ _ => ?_)
  · exact hinner.field hlist
  · exact visitField_mirrors hbelow hinner .body

theorem recordCallOperator_mirrors (hnode : (K.at p.pending).Within node) (lambda : Node) :
    K.Mirrors nesting p p (Traversal.recordCallOperator hands lambda node)
      (recordCallOperator below (K.view p) lambda node) fun _ => True := by
  unfold Traversal.recordCallOperator recordCallOperator
  cases hresult : node.ofKind? .trailingReturnType with
  | none => exact .pure trivial
  | some result =>
    obtain ⟨heq, hshared⟩ := hnode.result_same ((K.at p.pending).readsBelow node) hresult
    refine .here ?_
    simp only [Scope.reading_source]
    rw [← heq]
    refine .bind (lowerWritten_mirrors hbelow _ hshared) fun written _ => ?_
    refine .onState ?_ fun _ => ⟨rfl, .inl rfl, rfl, rfl⟩
    simp only [Scope.reading_source, K.pair.location_eq]
    rfl

theorem visitLambdaDeclarator_mirrors (hnode : (K.at p.pending).Within node) (lambda : Node) :
    K.Mirrors nesting p p (Traversal.visitLambdaDeclarator hands lambda node)
      (visitLambdaDeclarator below (K.view p) lambda node) fun _ => True := by
  refine .bind (recordCallOperator_mirrors hbelow hnode lambda) fun _ _ => ?_
  refine .bind (visitParameterList_mirrors hbelow (fun _ hlist => ?_) .parameter) fun _ _ =>
    .pure trivial
  exact hnode.field hlist

theorem visitLambda_mirrors (hnode : (K.at p.pending).Within node) :
    K.Mirrors nesting p p (Traversal.visitLambda hands node) (visitLambda below (K.view p) node)
      fun _ => True := by
  refine .bind (visitField_mirrors hbelow hnode .captures) fun _ _ => ?_
  refine .enterContext fun context => ?_
  have hinner : (K.at (p.inContext context).inBlock.pending).Within node := hnode
  refine .framedThen ?_ (leaveContext_mirrors context)
  unfold Traversal.visitLambdaParts
  cases hdeclarator : node.field? .declarator with
  | none => exact visitField_mirrors hbelow hinner .body
  | some declarator =>
    exact .bind (visitLambdaDeclarator_mirrors hbelow (hinner.field hdeclarator) node)
      fun _ _ => visitField_mirrors hbelow hinner .body

end Statements

/-! ## Calls -/

section Calls

include hbelow

theorem recordCast_mirrors (call : Node) {args : Option Node}
    (hargs : ∀ list ∈ args, (K.at p.pending).Within list) :
    K.Mirrors nesting p p (Traversal.recordCast hands call args)
      (recordCast below (K.view p) call args) fun _ => True := by
  unfold Traversal.recordCast recordCast
  cases hhead : args.bind (·.named.head?) with
  | none => exact .pure trivial
  | some written =>
    obtain ⟨list, hlist, hmem⟩ := Option.bind_eq_some_iff.mp hhead
    have hwithin : (K.at p.pending).Within written :=
      (hargs list hlist).named (List.mem_of_mem_head? hmem)
    refine .bind (castDestination_mirrors hbelow hwithin) fun destination _ => ?_
    cases destination with
    | none => exact .pure trivial
    | some ty =>
      refine .onState ?_ fun _ => ⟨rfl, .inl rfl, rfl, rfl⟩
      simp only [Scope.reading_source, K.pair.location_eq]
      rfl

theorem argumentTypes_mirrors {args : Option Node}
    (hargs : ∀ list ∈ args, (K.at p.pending).Within list) :
    K.Mirrors nesting p p (Traversal.argumentTypes hands args)
      (argumentTypes below (K.view p) args) fun _ => True := by
  cases args with
  | none => exact .pure trivial
  | some list =>
    exact .mapM _ fun arg harg => hbelow.infer p arg ((hargs list rfl).named harg)

theorem writtenArguments_mirrors (hnode : (K.at p.pending).Within node) :
    K.Mirrors nesting p p (Traversal.writtenArguments hands node)
      (writtenArguments below (K.view p) node) fun _ => True := by
  unfold Traversal.writtenArguments writtenArguments
  cases hlist : node.field? .arguments with
  | none => exact .pure trivial
  | some list =>
    exact .mapM _ fun arg harg =>
      templateArgument_mirrors hbelow ((hnode.field hlist).named harg)

theorem recordUse_mirrors (name : String) (explicit : List (Option QualType)) {args : Option Node}
    (hargs : ∀ list ∈ args, (K.at p.pending).Within list) :
    K.Mirrors nesting p p (Traversal.recordUse hands name explicit args)
      (recordUse below (K.view p) name explicit args) fun _ => True := by
  refine .get fun t _ => .branch (fun _ => ?_) fun _ => .pure trivial
  exact .bind (argumentTypes_mirrors hbelow hargs) fun _ _ =>
    .onState rfl fun _ => ⟨rfl, .inl rfl, rfl, rfl⟩

theorem recordCall_mirrors (hnode : (K.at p.pending).Within node) {callee : Node}
    (hcallee : (K.at p.pending).Within callee) :
    K.Mirrors nesting p p (Traversal.recordCall hands node callee)
      (recordCall below (K.view p) node callee) fun _ => True := by
  have hargs : ∀ list ∈ node.field? .arguments, (K.at p.pending).Within list := fun _ hlist =>
    hnode.field hlist
  refine .here ?_
  dsimp only
  split
  case h_1 hkind =>
    simp only [recordCall, hkind, Scope.reading_source, hcallee.map_text_eq (f := .name) rfl]
    refine .branch (fun _ => ?_) fun _ => ?_
    · exact recordCast_mirrors hbelow node fun _ hlist => hcallee.field hlist
    · exact .bind (writtenArguments_mirrors hbelow hcallee) fun explicit _ =>
        recordUse_mirrors hbelow _ explicit hargs
  case h_2 hkind =>
    simp only [recordCall, hkind, Scope.reading_source, (hcallee.word hkind rfl).2]
    exact recordUse_mirrors hbelow _ [] hargs
  case h_3 =>
    have hwalk : recordCall below (K.view p) node callee = pure () := by
      unfold recordCall
      split <;> first | contradiction | rfl
    rw [hwalk]
    exact .pure trivial

theorem visitCall_mirrors (hnode : (K.at p.pending).Within node) :
    K.Mirrors nesting p p (Traversal.visitCall hands node) (visitCall below (K.view p) node)
      fun _ => True := by
  unfold Traversal.visitCall visitCall
  cases hfunction : node.field? .function with
  | none => exact visitNamed_mirrors hbelow hnode
  | some function =>
    have hcallee := (hnode.field hfunction).innermostName
    exact .bind (recordCall_mirrors hbelow hnode hcallee) fun _ _ =>
      visitNamed_mirrors hbelow hnode

end Calls

/-! ## Templates -/

section Templates

include hbelow

theorem visitTemplateBody_mirrors (hnode : (K.at p.pending).Within node) :
    K.Mirrors nesting p p (Traversal.visitAll hands (templateBody node))
      (visitAll below (K.view p) (templateBody node)) fun _ => True :=
  visitAll_mirrors hbelow fun _ hmem => hnode.named (List.mem_filter.mp hmem).1

theorem visitSpecialization_mirrors (hnode : (K.at p.pending).Within node) :
    K.Mirrors nesting p p (Traversal.visitSpecialization hands node)
      (visitSpecialization below (K.view p) node) fun _ => True := by
  refine .get fun t _ => .bind (setSpecialization_mirrors _) fun _ _ => ?_
  exact .bind (visitTemplateBody_mirrors hbelow hnode) fun _ _ => setSpecialization_mirrors _

theorem templateParam_mirrors (hnode : (K.at p.pending).Within node) :
    K.Mirrors nesting p p (Traversal.templateParam hands node)
      (templateParam below (K.view p) node) fun _ => True := by
  have hfound : ∀ name ∈ node.named.find? (·.kind == .typeIdentifier),
      K.pair.left.text name = K.pair.right.text name := by
    intro name hname
    have hkind : name.kind = .typeIdentifier := by simpa using List.find?_some hname
    exact ((hnode.named (List.mem_of_find?_eq_some hname)).word hkind rfl).2
  refine .here ?_
  dsimp only
  split
  case h_1 hkind | h_2 hkind =>
    simp only [templateParam, hkind, Scope.reading_source]
    rw [Option.map_congr fun name hname => by rw [hfound name hname]]
    exact .pure trivial
  case h_3 hkind =>
    simp only [templateParam, hkind, Scope.reading_source]
    cases hname : node.field? .name with
    | none => exact .pure trivial
    | some name =>
      simp only [(hnode.spelled rfl hname).2]
      cases hdefault : node.field? .defaultType with
      | none => exact .pure trivial
      | some type =>
        obtain ⟨heq, hwithin⟩ := hnode.defaultType_same hdefault
        dsimp only
        rw [← heq]
        exact .bind (lowerSpecifier_mirrors hbelow hwithin) fun _ _ => .pure trivial
  case h_4 =>
    have hwalk : templateParam below (K.view p) node = pure (some .ofValue) := by
      unfold templateParam
      split <;> first | contradiction | rfl
    rw [hwalk]
    exact .pure trivial

theorem visitValueParams_mirrors {nodes : List Node}
    (hnodes : ∀ node ∈ nodes, (K.at p.pending).Within node) :
    K.Mirrors nesting p p
      (nodes.forM fun param => do
        let _ ← Traversal.visitParameter hands .templateParameter param)
      (nodes.forM fun param => do
        let _ ← visitParameter below (K.view p) .templateParameter param) fun _ => True :=
  .forM nodes fun param hparam =>
    .bind (visitParameter_mirrors hbelow (hnodes param hparam) .templateParameter)
      fun _ _ => .pure trivial

-- The body is walked with parameters waiting that this declaration, or one around it, writes.
theorem visitPendingBody_mirrors (hnode : (K.at p.pending).Within node)
    (hkind : node.kind = .templateDeclaration) {params : List TemplateParam}
    (hparams : KeptFor (K.pair.right.writtenParams node) params) (names : List String) :
    K.Mirrors nesting (p.inTemplate names) p
      (do
        if (templateBody node).any mayDeclareFunction then
          Traversal.setPendingTemplate (some params)
        Traversal.visitAll hands (templateBody node)
        Traversal.setPendingTemplate none
        Traversal.popTypeParams)
      (do
        if (templateBody node).any mayDeclareFunction then
          modify fun s => { s with pendingTemplate := some params }
        visitAll below (K.view (p.inTemplate names)) (templateBody node)
        modify fun s => { s with pendingTemplate := none }) fun _ => True := by
  let inner := p.inTemplate names
  have hown : (K.at (inner.awaiting (some params)).pending).Within node := by
    refine ⟨hnode.1, fun waiting hwaiting => ?_⟩
    obtain rfl := Option.some.inj hwaiting
    exact K.written hnode.1 hkind hparams
  have hleave : ∀ q : Stand, q.scope = inner.scope → q.outer = inner.outer →
      K.Mirrors nesting q p (do Traversal.setPendingTemplate none; Traversal.popTypeParams)
        (modify fun s => { s with pendingTemplate := none }) fun _ => True :=
    fun q hscope houter => .restore
      (setPendingTemplate_mirrors (q := inner) (.inr rfl) hscope.symm houter.symm)
      (popTypeParams_mirrors names)
  refine .branch (fun _ => ?_) fun _ => ?_
  · refine .bind (setPendingTemplate_mirrors (q := inner.awaiting (some params)) (.inl rfl) rfl rfl)
      fun _ _ => ?_
    exact .bind (visitTemplateBody_mirrors hbelow hown) fun _ _ => hleave _ rfl rfl
  · exact .bind (visitTemplateBody_mirrors (p := inner) hbelow hnode) fun _ _ => hleave _ rfl rfl

theorem visitTemplatePattern_mirrors (hnode : (K.at p.pending).Within node)
    (hkind : node.kind = .templateDeclaration) {paramNodes : List Node}
    (hparams : ∀ param ∈ paramNodes, (K.at p.pending).Within param)
    (hwritten : K.pair.right.writtenParams node = paramNodes.map K.pair.right.writtenParam) :
    K.Mirrors nesting p p (Traversal.visitTemplatePattern hands node paramNodes)
      (visitTemplatePattern below (K.view p) node paramNodes) fun _ => True := by
  have hread : K.Mirrors nesting p p (paramNodes.mapM (Traversal.templateParam hands))
      (paramNodes.mapM (templateParam below (K.view p)))
      fun results => KeptFor (K.pair.right.writtenParams node) (results.filterMap id) := by
    refine .mono (.mapM _ fun param hparam => ?_) fun s _ => ?_
    · exact templateParam_mirrors hbelow (hparams param hparam)
    · rw [hwritten]
      exact mapM_templateParam_run below (K.view p) paramNodes s
  refine .bind hread fun results hresults => .first (pushTypeParams_mirrors _) ?_
  refine .bind (visitValueParams_mirrors hbelow fun param hparam => ?_) fun _ _ => ?_
  · exact hparams param (List.mem_filter.mp hparam).1
  · exact visitPendingBody_mirrors hbelow hnode hkind hresults _

theorem visitTemplate_mirrors (hnode : (K.at p.pending).Within node)
    (hkind : node.kind = .templateDeclaration) :
    K.Mirrors nesting p p (Traversal.visitTemplate hands node)
      (visitTemplate below (K.view p) node) fun _ => True := by
  have hlisted : ∀ param ∈ ((node.field? .parameters).map Node.named).getD [],
      (K.at p.pending).Within param := fun _ hparam => hnode.listed hparam
  have hwritten : K.pair.right.writtenParams node =
      (((node.field? .parameters).map Node.named).getD []).map K.pair.right.writtenParam := rfl
  unfold Traversal.visitTemplate visitTemplate
  cases hnodes : ((node.field? .parameters).map Node.named).getD [] with
  | nil => exact visitSpecialization_mirrors hbelow hnode
  | cons first rest =>
    rw [hnodes] at hlisted hwritten
    exact visitTemplatePattern_mirrors hbelow hnode hkind hlisted hwritten

theorem instantiationArguments_mirrors (hnode : (K.at p.pending).Within node) :
    K.Mirrors nesting p p (Traversal.instantiationArguments hands node)
      (instantiationArguments below (K.view p) node) fun _ => True :=
  .branch (fun _ => writtenArguments_mirrors hbelow hnode) fun _ => .pure trivial

theorem instantiationTypes_mirrors {params : Option Node}
    (hparams : ∀ list ∈ params, (K.at p.pending).Within list) :
    K.Mirrors nesting p p (Traversal.instantiationTypes hands params)
      (instantiationTypes below (K.view p) params) fun _ => True := by
  cases params with
  | none => exact .pure trivial
  | some list => exact parameterTypes_mirrors hbelow (hparams list rfl)

-- The one visitor that reads beside its node: whether it is marked `extern` is the same by
-- assumption, not because its text is.
theorem visitInstantiation_mirrors (hnode : (K.at p.pending).Within node)
    (hkind : node.kind = .templateInstantiation) :
    K.Mirrors nesting p p (Traversal.visitInstantiation hands node)
      (visitInstantiation below (K.view p) node) fun _ => True := by
  refine .bind (lowerDeclaration_mirrors hbelow hnode (Node.hasSpecifier_of_kind hkind rfl))
    fun declared hdeclared => ?_
  cases hname : declared.name with
  | none => exact .pure trivial
  | some nameNode =>
    have hcallee := (hdeclared.name nameNode hname).innermostName
    refine .bind (instantiationArguments_mirrors hbelow hcallee.1) fun explicit _ => ?_
    refine .bind (instantiationTypes_mirrors hbelow hdeclared.params) fun callArgs _ => ?_
    refine .onState ?_ fun _ => ⟨rfl, .inl rfl, rfl, rfl⟩
    simp only [Scope.reading_source, hcallee.simpleName_eq, K.pair.external hnode.1 hkind]
    rfl

end Templates

/-! ## The levels of the walk -/

section Levels

include hbelow

theorem visitNode_mirrors (hnode : (K.at p.pending).Within node) :
    K.Mirrors nesting p p (Traversal.visitNode hands node) (visitNode below (K.view p) node)
      fun _ => True := by
  unfold Traversal.visitNode
  split
  case h_1 hkind =>
    simp only [visitNode, hkind]
    exact visitNamespace_mirrors hbelow hnode
  case h_2 hkind | h_3 hkind | h_4 hkind =>
    simp only [visitNode, hkind]
    exact visitRecord_mirrors hbelow hnode
  case h_5 hkind =>
    simp only [visitNode, hkind]
    exact visitEnum_mirrors hbelow hnode
  case h_6 hkind =>
    simp only [visitNode, hkind]
    exact visitTypedef_mirrors hbelow hnode (Node.hasSpecifier_of_kind hkind rfl)
  case h_7 hkind =>
    simp only [visitNode, hkind]
    exact visitAlias_mirrors hbelow hnode
  case h_8 hkind =>
    simp only [visitNode, hkind]
    exact visitTemplate_mirrors hbelow hnode hkind
  case h_9 hkind =>
    simp only [visitNode, hkind]
    exact visitInstantiation_mirrors hbelow hnode hkind
  case h_10 hkind =>
    simp only [visitNode, hkind]
    exact visitFunctionDefinition_mirrors hbelow hnode (Node.hasSpecifier_of_kind hkind rfl)
  case h_11 hkind | h_12 hkind =>
    simp only [visitNode, hkind]
    exact visitDeclaration_mirrors hbelow hnode (Node.hasSpecifier_of_kind hkind rfl)
  case h_13 hkind =>
    simp only [visitNode, hkind]
    exact visitRangeFor_mirrors hbelow hnode (Node.hasSpecifier_of_kind hkind rfl)
  case h_14 hkind =>
    simp only [visitNode, hkind]
    exact visitCatch_mirrors hbelow hnode
  case h_15 hkind =>
    simp only [visitNode, hkind]
    exact visitLambda_mirrors hbelow hnode
  case h_16 hkind =>
    simp only [visitNode, hkind]
    exact visitCall_mirrors hbelow hnode
  case h_17 hkind =>
    simp only [visitNode, hkind]
    exact .framed (visitNamed_mirrors (p := p.inBlock) hbelow hnode)
  case h_18 =>
    have hwalk : visitNode below (K.view p) node = visitAll below (K.view p) node.named := by
      unfold visitNode
      split <;> first | contradiction | rfl
    rw [hwalk]
    exact visitNamed_mirrors hbelow hnode

omit hbelow in
theorem inferCall_of_kind_ne {scope : Scope} {callee : Node}
    (hcallee : node.field? .function = some callee) (hkind : callee.kind ≠ .templateFunction) :
    inferCall below scope node = pure none := by
  unfold inferCall
  rw [hcallee]
  dsimp only
  split
  · contradiction
  · rfl

theorem inferCall_mirrors (hnode : (K.at p.pending).Within node) :
    K.Mirrors nesting p p (Traversal.inferCall hands node) (inferCall below (K.view p) node)
      fun _ => True := by
  refine .here ?_
  cases hcallee : node.field? .function with
  | none =>
    simp only [inferCall, hcallee]
    exact .pure trivial
  | some callee =>
    have hwithin := hnode.field hcallee
    by_cases hkind : callee.kind = .templateFunction
    · simp only [inferCall, hcallee, hkind, true_and]
      cases hname : callee.field? .name with
      | none => exact .pure trivial
      | some name =>
        cases hargs : callee.field? .arguments with
        | none => exact .pure trivial
        | some args =>
          simp only [Scope.reading_source, (hwithin.spelled rfl hname).2]
          refine .branch (fun _ => ?_) fun _ => .pure trivial
          cases hhead : args.named.head? with
          | none => exact .pure trivial
          | some written =>
            exact castDestination_mirrors hbelow
              ((hwithin.field hargs).named (List.mem_of_mem_head? hhead))
    · rw [inferCall_of_kind_ne hcallee hkind]
      simp only [hkind, false_and, if_false]
      cases callee.field? .name <;> cases callee.field? .arguments <;> exact .pure trivial

theorem inferUnary_mirrors (hnode : (K.at p.pending).Within node) :
    K.Mirrors nesting p p (Traversal.inferUnary hands node) (inferUnary below (K.view p) node)
      fun _ => True := by
  refine .here ?_
  unfold inferUnary
  simp only [Scope.reading_source, hnode.map_text_eq (f := .operator) rfl]
  cases hargument : node.field? .argument with
  | none => exact .pure trivial
  | some argument =>
    refine .branch (fun _ => .pure trivial) fun _ => .branch (fun _ => ?_) fun _ => .pure trivial
    exact .bind (hbelow.infer p argument (hnode.field hargument)) fun _ _ => .pure trivial

theorem inferNode_mirrors (hnode : (K.at p.pending).Within node) :
    K.Mirrors nesting p p (Traversal.inferNode hands node) (inferNode below (K.view p) node)
      fun _ => True := by
  refine .here ?_
  dsimp only
  split
  case h_1 hkind | h_2 hkind =>
    simp only [inferNode, hkind, Scope.reading_source, (hnode.word hkind rfl).2]
    exact .pure trivial
  case h_3 hkind | h_4 hkind | h_5 hkind | h_6 hkind =>
    simp only [inferNode, hkind]
    exact .pure trivial
  case h_7 hkind | h_8 hkind | h_9 hkind =>
    simp only [inferNode, hkind]
    cases hnamed : node.named with
    | nil => exact .pure trivial
    | cons only rest =>
      cases rest with
      | nil => exact hbelow.infer p only (hnode.named (hnamed ▸ List.mem_singleton_self only))
      | cons second more => exact .pure trivial
  case h_10 hkind =>
    simp only [inferNode, hkind, Scope.reading_source, (hnode.word hkind rfl).2]
    exact .bind (.onState rfl fun _ => ⟨rfl, .inl rfl, rfl, rfl⟩) fun _ _ => .pure trivial
  case h_11 hkind =>
    simp only [inferNode, hkind]
    exact inferUnary_mirrors hbelow hnode
  case h_12 hkind =>
    simp only [inferNode, hkind]
    cases htype : node.field? .type with
    | none => exact .pure trivial
    | some type =>
      exact .bind (lowerDescriptor_mirrors hbelow (hnode.field htype)
        (Node.hasSpecifier_of_role htype)) fun _ _ => .pure trivial
  case h_13 hkind =>
    simp only [inferNode, hkind]
    exact inferCall_mirrors hbelow hnode
  case h_14 =>
    have hwalk : inferNode below (K.view p) node = pure none := by
      unfold inferNode
      split <;> first | contradiction | rfl
    rw [hwalk]
    exact .pure trivial

end Levels

end WidthCheck.Lowering.Origins
