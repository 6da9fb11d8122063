import WidthCheck.Lowering.Walk
import WidthCheck.Proofs.Lowering.TypeEffect

/-!
# The walk has an effect

Every visitor has an effect in the scope it is called in, provided that the walker below it has. By
induction on the number of levels so has the walk itself.
-/

namespace WidthCheck.Lowering

/-- Visiting a node and inferring a type have effects, and the inferred type is as it should be. -/
structure WalkerActs (P : QualType → Prop) (walker : Walker) : Prop where
  visit : VisitActs P walker.visit
  infer : ∀ scope node, Acts P scope (Ready P scope) (walker.infer scope node)
    fun result => ∀ ty ∈ result, P ty

variable {P : QualType → Prop} {below : Walker} {scope : Scope}

theorem Walker.refuse_acts : WalkerActs P .refuse where
  visit _ node := noteTooDeep_acts node
  infer _ node := .bind Ready.stable (noteTooDeep_acts node) fun _ _ => .pure (by simp)

variable (hP : TypeClosed P) (hbelow : WalkerActs P below)

section Declarations

include hbelow

theorem visitAll_acts (nodes : List Node) :
    Acts P scope (Ready P scope) (visitAll below scope nodes) fun _ => True :=
  .forM Ready.stable nodes fun node _ => hbelow.visit scope node

theorem visitField_acts (node : Option Node) :
    Acts P scope (Ready P scope) (visitField below scope node) fun _ => True := by
  cases node with
  | none => exact .pure trivial
  | some n => exact hbelow.visit scope n

theorem visitNamespace_acts (node : Node) :
    Acts P scope (Ready P scope) (visitNamespace below scope node) fun _ => True := by
  intro s hs
  refine ⟨.namespaceBody (((node.field? .name).map scope.source.text).getD "") ?_, trivial⟩
  have hready : Ready P (scope.inside s) (s.opened scope .namespaceBody
      (((node.field? .name).map scope.source.text).getD "") .undeclared) :=
    ⟨hs.bindings, hs.frames⟩
  unfold visitNamespace
  cases node.field? .body with
  | none => exact .refl
  | some body => exact (visitAll_acts hbelow body.named _ hready).1

theorem visitRecordBody_acts (name : String) (nodes : List Node) :
    Acts P scope (Ready P scope)
      (enterContext scope .record name .undeclared >>= fun inner =>
        withFrame (visitAll below { inner with records := name :: scope.records } nodes))
      fun _ => True := by
  intro s hs
  refine ⟨.record name ?_, trivial⟩
  have hready : Ready P { scope.inside s with records := name :: scope.records }
      { s.opened scope .record name .undeclared with frames := [] :: s.frames } :=
    ⟨hs.bindings, hs.frames.push⟩
  exact (visitAll_acts hbelow nodes _ hready).1

theorem visitRecord_acts (node : Node) :
    Acts P scope (Ready P scope) (visitRecord below scope node) fun _ => True := by
  unfold visitRecord
  split
  · exact .pure trivial
  · dsimp only
    split
    · exact .bind Ready.stable (addRecord_acts _) fun _ _ => visitRecordBody_acts hbelow _ _
    · exact visitRecordBody_acts hbelow _ _

theorem visitEnum_acts (node : Node) :
    Acts P scope (Ready P scope) (visitEnum below scope node) fun _ => True := by
  have hbody : ∀ body : Node, Acts P scope (Ready P scope)
      (body.named.forM fun enumerator => visitField below scope (enumerator.field? .value))
      fun _ => True := fun body =>
    .forM Ready.stable _ fun _ _ => visitField_acts hbelow _
  unfold visitEnum
  cases node.field? .name with
  | none =>
    cases node.field? .body with
    | none => exact .pure trivial
    | some body => exact hbody body
  | some name =>
    refine .bind Ready.stable (addEnum_acts _ _) fun _ _ => ?_
    cases node.field? .body with
    | none => exact .pure trivial
    | some body => exact hbody body

include hP

theorem visitTypedefDeclarator_acts {base : QualType} (hbase : P base) (declarator : Node) :
    Acts P scope (Ready P scope) (visitTypedefDeclarator below scope base declarator)
      fun _ => True := by
  refine .bind Ready.stable (applyNode_acts hP hbelow.visit _ hbase) fun declared hdeclared => ?_
  split
  · exact addAlias_acts _ hdeclared
  · exact .pure trivial

theorem visitTypedef_acts (node : Node) :
    Acts P scope (Ready P scope) (visitTypedef below scope node) fun _ => True :=
  .bind Ready.stable (baseType_acts hP hbelow.visit node) fun _ hbase =>
    .forM Ready.stable _ fun declarator _ => visitTypedefDeclarator_acts hP hbelow hbase declarator

theorem visitAlias_acts (node : Node) :
    Acts P scope (Ready P scope) (visitAlias below scope node) fun _ => True := by
  unfold visitAlias
  split
  · exact .bind Ready.stable (lowerDescriptor_acts hP hbelow.visit _) fun _ hty =>
      addAlias_acts _ hty
  · exact .pure trivial

theorem visitParameter_acts (kind : ValueKind) (param : Node) :
    Acts P scope (Hosts P kind scope) (visitParameter below scope kind param)
      fun result => ∀ ty ∈ result, P ty := by
  unfold visitParameter
  split
  · exact .pure (by simp)
  refine .bind Hosts.stable
    ((lowerDeclaration_acts hP hbelow.visit param).weaken fun _ h => h.toReady)
    fun declared hdeclared => ?_
  have hty : P declared.ty.decay := hP.decay _ hdeclared
  have hdefault : Acts P scope (Hosts P kind scope)
      (visitField below scope (param.field? .defaultValue) >>= fun _ =>
        pure (some declared.ty.decay)) fun result => ∀ ty ∈ result, P ty :=
    .bind Hosts.stable ((visitField_acts hbelow _).weaken fun _ h => h.toReady)
      fun _ _ => .pure (by simpa using hty)
  dsimp only
  split
  · exact .pure (by simp)
  cases declared.name with
  | none =>
    exact .bind Hosts.stable (declare_acts _ _ _ Hosts.stable hty fun _ h => h.toSuits)
      fun _ _ => hdefault
  | some name =>
    exact .bind Hosts.stable (declare_acts _ _ _ Hosts.stable hty fun _ h => h.toSuits)
      fun _ _ => hdefault

theorem visitParameters_acts (kind : ValueKind) (list : Node) :
    Acts P scope (Hosts P kind scope) (visitParameters below scope kind list)
      fun types => ∀ ty ∈ types, P ty := by
  refine .bind Hosts.stable
    (.mapM Hosts.stable _ fun param _ => visitParameter_acts hP hbelow kind param)
    fun results hresults => ?_
  apply Acts.pure
  intro ty hty
  obtain ⟨result, hmem, hresult⟩ := List.mem_filterMap.mp hty
  exact hresults result hmem ty hresult

theorem visitParameterList_acts (kind : ValueKind) (list : Option Node) :
    Acts P scope (Hosts P kind scope) (visitParameterList below scope kind list)
      fun types => ∀ ty ∈ types, P ty := by
  cases list with
  | none => exact .pure (by simp)
  | some list => exact visitParameters_acts hP hbelow kind list

end Declarations

/-! ## Functions -/

-- What kind of function a name declares is found out without touching the state.
theorem functionKind_run (scope : Scope) (nameNode : Node) (s : State) :
    ∃ kind, functionKind scope nameNode s = (kind, s) ∧ kind.isFunctionLike = true := by
  unfold functionKind
  generalize nameNode.innermostName.kind = nameKind
  split
  · exact ⟨.destructor, rfl, rfl⟩
  · exact ⟨.conversion, rfl, rfl⟩
  · refine ⟨_, rfl, ?_⟩
    rw [apply_ite ContextKind.isFunctionLike, apply_ite ContextKind.isFunctionLike]
    simp [ContextKind.isFunctionLike]

-- Opening a function records it in the context that it opens, and uses up what was waiting for
-- it.
theorem openFunction_run (scope : Scope) (nameNode : Node) (returnType : QualType) (s : State) :
    ∃ decl : FunctionDecl, decl.context = s.unit.contexts.size ∧
      decl.kind.isFunctionLike = true ∧ decl.returnType = returnType ∧
      openFunction scope nameNode returnType s = ((scope.inside s, s.pendingTemplate),
        { s.functionOpened scope decl with frames := s.frames }) := by
  obtain ⟨kind, hrun, hkind⟩ := functionKind_run scope nameNode
    (takeInstantiationArgs (takeSpecialization (takePendingTemplate s).2).2).2
  cases hname : scope.source.entityName nameNode with
  | mk written locationNode =>
    refine ⟨{
      name := specializedName written s.instantiationArgs
      kind, returnType
      location := scope.source.location locationNode
      context := s.unit.contexts.size }, rfl, hkind, rfl, ?_⟩
    unfold openFunction
    simp only [hname, bind_run, hrun]
    rfl

theorem kindAt_opened (s : State) (scope : Scope) (kind : ContextKind) (name : String)
    (specialization : Specialization) :
    (s.opened scope kind name specialization).kindAt s.unit.contexts.size = kind := by
  simp [State.kindAt, State.opened, CompilationUnit.addContext, CompilationUnit.context?]

-- Inside a function that has just been opened its parameters can be declared.
theorem hosts_functionOpened {s : State} (hs : Ready P scope s) {decl : FunctionDecl}
    (hkind : decl.kind.isFunctionLike = true) :
    Hosts P .parameter (scope.inside s) (s.functionOpened scope decl) := by
  refine ⟨⟨hs.bindings, hs.frames.push⟩, ⟨by simp, fun _ => ?_⟩⟩
  have hopened : (s.functionOpened scope decl).kindAt s.unit.contexts.size = decl.kind :=
    kindAt_opened s scope decl.kind decl.name s.specialization
  change ((s.functionOpened scope decl).kindAt s.unit.contexts.size).isFunctionLike = true
  rw [hopened]
  exact hkind

theorem registerFunction_registers (scope : Scope) (owner nameNode : Node)
    {paramTypes : List QualType} (htypes : ∀ ty ∈ paramTypes, P ty)
    (pending : Option (List TemplateParam)) (s : State) :
    Registration P scope pending s
      (registerFunction scope owner nameNode paramTypes pending s).2 := by
  cases pending with
  | none => exact .ordinary
  | some params => exact .template _ rfl rfl rfl htypes

section Functions

include hP hbelow

theorem visitFunction_acts (owner : Node) (declared : Declared) {returnType : QualType}
    (htype : P returnType) :
    Acts P scope (Ready P scope) (visitFunction below scope owner declared returnType)
      fun _ => True := by
  unfold visitFunction
  cases declared.name with
  | none => exact .pure trivial
  | some nameNode =>
    intro s hs
    refine ⟨?_, trivial⟩
    obtain ⟨decl, hcontext, hkind, hreturn, hopen⟩ :=
      openFunction_run scope nameNode returnType s
    -- The parameters are declared in the new context, the template is registered, and what is
    -- left is the body.
    obtain ⟨hparams, htypes⟩ := visitParameterList_acts hP hbelow .parameter declared.params _
      (hosts_functionOpened hs hkind)
    have hregistration := registerFunction_registers scope owner nameNode htypes
      s.pendingTemplate (visitParameterList below (scope.inside s) .parameter declared.params
        (s.functionOpened scope decl)).2
    have hbody : Acts P (scope.inside s) (Ready P (scope.inside s))
        (if !scope.skipBodies then
          visitAll below (scope.inside s) (owner.named.filter isFunctionBody)
        else pure ()) fun _ => True := by
      split
      · exact visitAll_acts hbelow _
      · exact .pure trivial
    have hready := Ready.stable _ _ hparams (hosts_functionOpened hs hkind).toReady
    have hregistered : Ready P (scope.inside s) (registerFunction scope owner nameNode _
        s.pendingTemplate _).2 := ⟨hs.bindings, by
      rw [hregistration.frames_eq]
      exact hready.frames⟩
    simp only [bind_run, hopen]
    exact .function decl hcontext hkind (hreturn ▸ htype) hparams hregistration
      (hbody _ hregistered).1

theorem visitFunctionDefinition_acts (node : Node) :
    Acts P scope (Ready P scope) (visitFunctionDefinition below scope node) fun _ => True := by
  refine .bind Ready.stable (lowerDeclaration_acts hP hbelow.visit node)
    fun declared hdeclared => ?_
  split
  · rename_i returnType quals hty
    rw [hty] at hdeclared
    exact visitFunction_acts hP hbelow node declared (hP.returned _ _ hdeclared)
  · exact visitAll_acts hbelow _

end Functions

/-! ## Declarations -/

theorem suits_var (s : State) : Suits .var scope s :=
  ⟨by simp, by simp⟩

theorem suits_templateParameter (s : State) : Suits .templateParameter scope s :=
  ⟨by simp, by simp⟩

-- A declaration that is not a function's and stands in a record declares a field only there.
theorem suits_declaration (isStatic : Bool) (s : State) :
    Suits (if s.kindAt scope.context == .record && !isStatic then .field else .var) scope s := by
  split
  · rename_i hrecord
    refine ⟨fun _ => ?_, by simp⟩
    simp only [Bool.and_eq_true, beq_iff_eq] at hrecord
    exact hrecord.1
  · exact suits_var s

section Declarations

include hP hbelow

theorem deduceAuto_acts {placeholder : QualType} (hplaceholder : P placeholder)
    (value : Option Node) :
    Acts P scope (Ready P scope) (deduceAuto below scope placeholder value) P := by
  unfold deduceAuto
  split
  · exact .pure hplaceholder
  refine .bind Ready.stable (hbelow.infer scope _) fun inferred hinferred => ?_
  cases inferred with
  | none => exact .pure hplaceholder
  | some ty =>
    exact .pure (hP.withQuals _ _ (hP.unqualified _ (hP.referee _ (hinferred ty rfl))))

theorem declaratorBase_acts {base : QualType} (hbase : P base) (value : Option Node) :
    Acts P scope (Ready P scope) (declaratorBase below scope base value) P := by
  unfold declaratorBase
  split
  · exact deduceAuto_acts hP hbelow hbase value
  · exact .pure hbase

theorem visitDeclared_acts (owner : Node) (kind : ValueKind) {declared : Declared}
    (hdeclared : P declared.ty) :
    Acts P scope (Hosts P kind scope) (visitDeclared below scope owner kind declared)
      fun _ => True := by
  unfold visitDeclared
  split
  · rename_i returnType quals name hfunction
    rw [hfunction] at hdeclared
    exact (visitFunction_acts hP hbelow owner declared (hP.returned _ _ hdeclared)).weaken
      fun _ h => h.toReady
  · exact declare_acts _ _ _ Hosts.stable hdeclared fun _ h => h.toSuits
  · exact .pure trivial

theorem visitDeclarator_acts (owner : Node) (kind : ValueKind) {base : QualType} (hbase : P base)
    (declarator : Node) :
    Acts P scope (Hosts P kind scope) (visitDeclarator below scope owner kind base declarator)
      fun _ => True := by
  unfold visitDeclarator
  cases splitInitializer owner declarator with
  | mk target value =>
    refine .bind Hosts.stable ((declaratorBase_acts hP hbelow hbase value).weaken
      fun _ h => h.toReady) fun ty hty => ?_
    refine .bind Hosts.stable ((applyNode_acts hP hbelow.visit target hty).weaken
      fun _ h => h.toReady) fun declared hdeclared => ?_
    exact .bind Hosts.stable (visitDeclared_acts hP hbelow owner kind hdeclared) fun _ _ =>
      (visitField_acts hbelow value).weaken fun _ h => h.toReady

theorem visitDeclaration_acts (node : Node) :
    Acts P scope (Ready P scope) (visitDeclaration below scope node) fun _ => True := by
  refine .bind Ready.stable (baseType_acts hP hbelow.visit node) fun base hbase => ?_
  intro s hs
  -- Whether the context is a record is asked once, before the declarators.
  have hhosts : Hosts P _ scope s := ⟨hs, suits_declaration (isStatic scope.source node) s⟩
  exact Acts.forM Hosts.stable (node.fieldAll .declarator)
    (fun declarator _ => visitDeclarator_acts hP hbelow node _ hbase declarator) s hhosts

end Declarations

/-! ## Statements and expressions with declarations of their own -/

theorem CallOperator.hosts {index : Nat} {kind : ValueKind} {s t : State}
    (h : CallOperator P index s t) (hs : Hosts P kind scope s) : Hosts P kind scope t := by
  cases h with
  | unwritten => exact hs
  | written decl => exact ⟨⟨hs.bindings, hs.frames⟩, ⟨hs.field, hs.parameter⟩⟩

section Statements

include hP hbelow

theorem visitRangeFor_acts (node : Node) :
    Acts P scope (Ready P scope) (visitRangeFor below scope node) fun _ => True := by
  refine .withFrame ?_
  refine .bind Ready.stable (visitField_acts hbelow _) fun _ _ => ?_
  refine .bind Ready.stable (lowerDeclaration_acts hP hbelow.visit node)
    fun declared hdeclared => ?_
  have hrest : Acts P scope (Ready P scope)
      (visitField below scope (node.field? .right) >>= fun _ =>
        visitField below scope (node.field? .body)) fun _ => True :=
    .bind Ready.stable (visitField_acts hbelow _) fun _ _ => visitField_acts hbelow _
  cases declared.name with
  | none => exact hrest
  | some name =>
    exact .bind Ready.stable
      (declare_acts _ _ _ Ready.stable hdeclared fun s _ => suits_var s) fun _ _ => hrest

theorem visitCatch_acts (node : Node) :
    Acts P scope (Ready P scope) (visitCatch below scope node) fun _ => True := by
  refine .withFrame ?_
  exact .bind Ready.stable
    ((visitParameterList_acts hP hbelow .var _).weaken fun s hs => ⟨hs, suits_var s⟩)
    fun _ _ => visitField_acts hbelow _

-- The return type of a lambda is lowered before the call operator is recorded.
theorem recordCallOperator_run (lambda declarator : Node) {s : State} (hs : Ready P scope s) :
    ∃ t, Effect P scope s t ∧
      CallOperator P scope.context t (recordCallOperator below scope lambda declarator s).2 := by
  unfold recordCallOperator
  cases declarator.ofKind? .trailingReturnType with
  | none => exact ⟨s, .refl, .unwritten⟩
  | some result =>
    obtain ⟨hwritten, htype⟩ := lowerWritten_acts hP hbelow.visit
      (scope.source.trailingType result) s hs
    exact ⟨_, hwritten, .written _ rfl rfl rfl htype⟩

theorem visitLambdaDeclarator_run (lambda declarator : Node) {s : State}
    (hs : Hosts P .parameter scope s) :
    ∃ t u, Effect P scope s t ∧ CallOperator P scope.context t u ∧
      Effect P scope u (visitLambdaDeclarator below scope lambda declarator s).2 := by
  obtain ⟨t, hresult, hoperator⟩ := recordCallOperator_run hP hbelow lambda declarator hs.toReady
  have hhosts := hoperator.hosts (Hosts.stable _ _ hresult hs)
  exact ⟨t, _, hresult, hoperator,
    (visitParameterList_acts hP hbelow .parameter _ _ hhosts).1⟩

theorem visitLambda_acts (node : Node) :
    Acts P scope (Ready P scope) (visitLambda below scope node) fun _ => True := by
  refine .bind Ready.stable (visitField_acts hbelow _) fun _ _ => ?_
  intro s hs
  refine ⟨?_, trivial⟩
  have hhosts : Hosts P .parameter (scope.inside s)
      { s.opened scope .method "operator()" .undeclared with frames := [] :: s.frames } := by
    refine ⟨⟨hs.bindings, hs.frames.push⟩, ⟨by simp, fun _ => ?_⟩⟩
    exact congrArg ContextKind.isFunctionLike
      (kindAt_opened s scope .method "operator()" .undeclared)
  cases hdeclarator : node.field? .declarator with
  | none =>
    have hbody := (visitField_acts hbelow (node.field? .body) _ hhosts.toReady).1
    simp only [bind_run]
    exact .lambda .refl .unwritten hbody
  | some declarator =>
    obtain ⟨t, u, hresult, hoperator, hparams⟩ :=
      visitLambdaDeclarator_run hP hbelow node declarator hhosts
    have hready : Ready P (scope.inside s) u := by
      have ht := Ready.stable _ _ hresult hhosts.toReady
      cases hoperator <;> exact ⟨ht.bindings, ht.frames⟩
    have hbody := (visitField_acts hbelow (node.field? .body) _
      (Ready.stable _ _ hparams hready)).1
    exact .lambda hresult hoperator (hparams.trans hbody)

end Statements

/-! ## Calls -/

section Calls

include hbelow

theorem argumentTypes_acts (args : Option Node) :
    Acts P scope (Ready P scope) (argumentTypes below scope args)
      fun results => ∀ ty, some ty ∈ results → P ty := by
  cases args with
  | none => exact .pure (by simp)
  | some list =>
    exact (Acts.mapM Ready.stable _ fun arg _ => hbelow.infer scope arg).mono
      fun _ hresults ty hty => hresults (some ty) hty ty rfl

theorem recordUse_acts (name : String) {explicit : List (Option QualType)}
    (hexplicit : ∀ ty, some ty ∈ explicit → P ty) (args : Option Node) :
    Acts P scope (Ready P scope) (recordUse below scope name explicit args) fun _ => True := by
  have hrecord : Acts P scope (Ready P scope) (do
      let callArgs ← argumentTypes below scope args
      addUse { name, explicit, callArgs, kind := .implicitInstantiation, depth := scope.depth })
      fun _ => True :=
    .bind Ready.stable (argumentTypes_acts hbelow args) fun _ hargs =>
      addUse_acts _ rfl rfl hexplicit hargs
  intro s hs
  change Effect P scope s ((if s.templates.any (·.name == name) then _ else _ : Lowering Unit) s).2
    ∧ True
  split
  · exact hrecord s hs
  · exact ⟨.refl, trivial⟩

include hP

theorem recordCast_acts (call : Node) (args : Option Node) :
    Acts P scope (Ready P scope) (recordCast below scope call args) fun _ => True := by
  unfold recordCast
  split
  · exact .pure trivial
  refine .bind Ready.stable (castDestination_acts hP hbelow.visit _)
    fun destination hdestination => ?_
  cases destination with
  | none => exact .pure trivial
  | some ty => exact addCast_acts _ rfl (hdestination ty rfl)

theorem writtenArguments_acts (callee : Node) :
    Acts P scope (Ready P scope) (writtenArguments below scope callee)
      fun results => ∀ ty, some ty ∈ results → P ty := by
  unfold writtenArguments
  split
  · exact (Acts.mapM Ready.stable _ fun arg _ => templateArgument_acts hP hbelow.visit arg).mono
      fun _ hresults ty hty => hresults (some ty) hty ty rfl
  · exact .pure (by simp)

theorem recordCall_acts (node callee : Node) :
    Acts P scope (Ready P scope) (recordCall below scope node callee) fun _ => True := by
  unfold recordCall
  split
  · dsimp only
    split
    · exact recordCast_acts hP hbelow _ _
    · exact .bind Ready.stable (writtenArguments_acts hP hbelow callee)
        fun _ hexplicit => recordUse_acts hbelow _ hexplicit _
  · exact recordUse_acts hbelow _ (by simp) _
  · exact .pure trivial

theorem visitCall_acts (node : Node) :
    Acts P scope (Ready P scope) (visitCall below scope node) fun _ => True := by
  unfold visitCall
  cases node.field? .function with
  | none => exact visitAll_acts hbelow _
  | some function =>
    exact .bind Ready.stable (recordCall_acts hP hbelow node _) fun _ _ => visitAll_acts hbelow _

end Calls

/-! ## Templates -/

section Templates

include hbelow

theorem visitSpecialization_acts (node : Node) :
    Acts P scope (Ready P scope) (visitSpecialization below scope node) fun _ => True := by
  intro s hs
  have hready : Ready P scope { s with specialization := .explicitSpecialization } :=
    ⟨hs.bindings, hs.frames⟩
  exact ⟨.specialization (visitAll_acts hbelow (templateBody node) _ hready).1, trivial⟩

-- The body of a template is walked with the parameters waiting for its function, or with what was
-- waiting before.
theorem visitTemplateBody_acts {params : List TemplateParam}
    (hparams : ∀ param ∈ params, ∀ ty ∈ param.default, P ty) (names : List String)
    (nodes : List Node) :
    Acts P scope (Ready P scope) (do
      if nodes.any mayDeclareFunction then
        modify fun s => { s with pendingTemplate := some params }
      visitAll below { scope with typeParams := names :: scope.typeParams } nodes
      modify fun s => { s with pendingTemplate := none }) fun _ => True := by
  intro s hs
  have hbody : ∀ pending, Effect P scope { s with pendingTemplate := pending }
      (visitAll below { scope with typeParams := names :: scope.typeParams } nodes
        { s with pendingTemplate := pending }).2 := by
    intro pending
    have hready : Ready P { scope with typeParams := names :: scope.typeParams }
        { s with pendingTemplate := pending } := ⟨hs.bindings, hs.frames⟩
    exact .typeParams names (visitAll_acts hbelow nodes _ hready).1
  dsimp only
  split
  · exact ⟨.template (some params) (.inr ⟨params, rfl, hparams⟩) (hbody (some params)), trivial⟩
  · exact ⟨.template s.pendingTemplate (.inl rfl) (hbody s.pendingTemplate), trivial⟩

include hP

theorem templateParam_acts (param : Node) :
    Acts P scope (Ready P scope) (templateParam below scope param)
      fun result => ∀ found ∈ result, ∀ ty ∈ found.default, P ty := by
  unfold templateParam
  split
  · exact .pure (by simp)
  · exact .pure (by simp)
  · split
    · exact .pure (by simp)
    cases param.field? .defaultType with
    | none => exact .pure (by simp)
    | some node =>
      exact .bind Ready.stable (lowerSpecifier_acts hP hbelow.visit _) fun ty hty =>
        .pure (by simpa using hty)
  · exact .pure (by simp [TemplateParam.ofValue])

-- The parameters of a template that are not types are declared with its type parameters in
-- effect.
theorem visitValueParams_acts (names : List String) (nodes : List Node) :
    Acts P scope (Ready P scope)
      (nodes.forM fun param => do
        let _ ← visitParameter below { scope with typeParams := names :: scope.typeParams }
          .templateParameter param) fun _ => True := by
  intro s hs
  refine ⟨.typeParams names ?_, trivial⟩
  have hready : Ready P { scope with typeParams := names :: scope.typeParams } s :=
    ⟨hs.bindings, hs.frames⟩
  refine (Acts.forM Ready.stable nodes (fun param _ => ?_) s hready).1
  exact .bind Ready.stable
    ((visitParameter_acts hP hbelow .templateParameter param).weaken
      fun s hs => ⟨hs, suits_templateParameter s⟩)
    fun _ _ => .pure trivial

theorem visitTemplatePattern_acts (node : Node) (paramNodes : List Node) :
    Acts P scope (Ready P scope) (visitTemplatePattern below scope node paramNodes)
      fun _ => True := by
  refine .bind Ready.stable
    (.mapM Ready.stable _ fun param _ => templateParam_acts hP hbelow param)
    fun results hresults => ?_
  have hparams : ∀ param ∈ results.filterMap id, ∀ ty ∈ param.default, P ty := by
    intro param hparam
    obtain ⟨result, hmem, hresult⟩ := List.mem_filterMap.mp hparam
    exact hresults result hmem param hresult
  exact .bind Ready.stable (visitValueParams_acts hP hbelow _ _) fun _ _ =>
    visitTemplateBody_acts hbelow hparams _ _

theorem visitTemplate_acts (node : Node) :
    Acts P scope (Ready P scope) (visitTemplate below scope node) fun _ => True := by
  unfold visitTemplate
  split
  · exact visitSpecialization_acts hbelow node
  · exact visitTemplatePattern_acts hP hbelow node _

theorem instantiationArguments_acts (callee : Node) :
    Acts P scope (Ready P scope) (instantiationArguments below scope callee)
      fun results => ∀ ty, some ty ∈ results → P ty := by
  unfold instantiationArguments
  split
  · exact writtenArguments_acts hP hbelow callee
  · exact .pure (by simp)

theorem instantiationTypes_acts (params : Option Node) :
    Acts P scope (Ready P scope) (instantiationTypes below scope params)
      fun results => ∀ ty, some ty ∈ results → P ty := by
  cases params with
  | none => exact .pure (by simp)
  | some list => exact parameterTypes_acts hP hbelow.visit list

theorem visitInstantiation_acts (node : Node) :
    Acts P scope (Ready P scope) (visitInstantiation below scope node) fun _ => True := by
  refine .bind Ready.stable (lowerDeclaration_acts hP hbelow.visit node) fun declared _ => ?_
  cases declared.name with
  | none => exact .pure trivial
  | some nameNode =>
    have hkind : (if scope.source.isExternal node then
        Specialization.explicitInstantiationDeclaration
      else .explicitInstantiationDefinition).isInstantiation = true := by
      split <;> rfl
    refine .bind Ready.stable (instantiationArguments_acts hP hbelow _)
      fun explicit hexplicit => ?_
    refine .bind Ready.stable (instantiationTypes_acts hP hbelow _) fun callArgs hargs => ?_
    exact addUse_acts _ rfl hkind hexplicit hargs

end Templates

/-! ## The levels of the walk -/

section Levels

include hP hbelow

theorem visitNode_acts (node : Node) :
    Acts P scope (Ready P scope) (visitNode below scope node) fun _ => True := by
  unfold visitNode
  split
  · exact visitNamespace_acts hbelow node
  · exact visitRecord_acts hbelow node
  · exact visitRecord_acts hbelow node
  · exact visitRecord_acts hbelow node
  · exact visitEnum_acts hbelow node
  · exact visitTypedef_acts hP hbelow node
  · exact visitAlias_acts hP hbelow node
  · exact visitTemplate_acts hP hbelow node
  · exact visitInstantiation_acts hP hbelow node
  · exact visitFunctionDefinition_acts hP hbelow node
  · exact visitDeclaration_acts hP hbelow node
  · exact visitDeclaration_acts hP hbelow node
  · exact visitRangeFor_acts hP hbelow node
  · exact visitCatch_acts hP hbelow node
  · exact visitLambda_acts hP hbelow node
  · exact visitCall_acts hP hbelow node
  · exact .withFrame (visitAll_acts hbelow _)
  · exact visitAll_acts hbelow _

theorem inferCall_acts (node : Node) :
    Acts P scope (Ready P scope) (inferCall below scope node)
      fun result => ∀ ty ∈ result, P ty := by
  unfold inferCall
  split
  · exact .pure (by simp)
  split
  · split
    · split
      · exact castDestination_acts hP hbelow.visit _
      · exact .pure (by simp)
    · exact .pure (by simp)
  · exact .pure (by simp)

theorem inferUnary_acts (node : Node) :
    Acts P scope (Ready P scope) (inferUnary below scope node)
      fun result => ∀ ty ∈ result, P ty := by
  unfold inferUnary
  split
  · exact .pure (by simp)
  dsimp only
  split
  · exact .pure (by simpa using hP.builtin ["bool"] "bool" (by decide))
  · split
    · refine .bind Ready.stable (hbelow.infer scope _) fun inferred hinferred => .pure ?_
      intro ty hty
      obtain ⟨argument, hargument, rfl⟩ := Option.map_eq_some_iff.mp hty
      exact hP.promote _ (hinferred argument hargument)
    · exact .pure (by simp)

theorem inferNode_acts (node : Node) :
    Acts P scope (Ready P scope) (inferNode below scope node)
      fun result => ∀ ty ∈ result, P ty := by
  have hbool : P (.builtin "bool") := hP.builtin ["bool"] "bool" (by decide)
  unfold inferNode
  split
  · exact .pure fun ty hty => hP.number _ ty hty
  · exact .pure (by simpa using hP.char _)
  · exact .pure (by simpa using hbool)
  · exact .pure (by simpa using hbool)
  · exact .pure (by simpa using hP.builtin ["unsigned", "long"] "unsigned long" (by decide))
  · exact .pure (by simpa using hP.builtin ["unsigned", "long"] "unsigned long" (by decide))
  · split
    · exact hbelow.infer scope _
    · exact .pure (by simp)
  · split
    · exact hbelow.infer scope _
    · exact .pure (by simp)
  · split
    · exact hbelow.infer scope _
    · exact .pure (by simp)
  · refine .bind Ready.stable (lookupName_acts _) fun found hfound => .pure ?_
    intro ty hty
    obtain ⟨named, hnamed, rfl⟩ := Option.map_eq_some_iff.mp hty
    exact hP.referee _ (hfound named hnamed)
  · exact inferUnary_acts hP hbelow node
  · split
    · exact .bind Ready.stable (lowerDescriptor_acts hP hbelow.visit _) fun ty hty =>
        .pure (by simpa using hty)
    · exact .pure (by simp)
  · exact inferCall_acts hP hbelow node
  · exact .pure (by simp)

end Levels

theorem walker_acts (hP : TypeClosed P) (levels : Nat) : WalkerActs P (walker levels) := by
  induction levels with
  | zero => exact Walker.refuse_acts
  | succ levels ih =>
    exact ⟨fun _ node => visitNode_acts hP ih node, fun _ node => inferNode_acts hP ih node⟩

end WidthCheck.Lowering
