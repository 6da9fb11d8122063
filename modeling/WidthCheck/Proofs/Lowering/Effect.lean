import WidthCheck.Lowering.State

/-!
# What a walk can do to the state

Walking a part of the tree does a few kinds of things to the state, nested the way the constructs
of the language are nested. `Effect` lists them once; that every visitor has such an effect is shown
in `WalkEffect`, and what a walk preserves then follows by induction on effects.

A predicate on types runs along: an effect stores only types of which it holds.
-/

namespace WidthCheck

/-- Whether a function came to exist by instantiating a template. -/
def Specialization.isInstantiation : Specialization → Bool
  | .undeclared | .explicitSpecialization => false
  | .implicitInstantiation | .explicitInstantiationDeclaration
  | .explicitInstantiationDefinition => true

namespace Lowering

/-! ## Contexts -/

/-- The kind of the context at an index. An index that is not in use counts as the file. -/
def State.kindAt (s : State) (index : Nat) : ContextKind :=
  match s.unit.context? index with
  | some context => context.kind
  | none => .file

/-- The state after a context has been opened inside the one of `scope`. -/
def State.opened (s : State) (scope : Scope) (kind : ContextKind) (name : String)
    (specialization : Specialization) : State :=
  { s with unit := s.unit.addContext { kind, name, specialization, parent := some scope.context } }

/-- The state after the function `decl` has been opened inside the context of `scope`, with a block
for its parameters. What was waiting for the function is used up. -/
def State.functionOpened (s : State) (scope : Scope) (decl : FunctionDecl) : State :=
  { s.opened scope decl.kind decl.name s.specialization with
    unit := (s.opened scope decl.kind decl.name s.specialization).unit.addEntity (.function decl)
    frames := [] :: s.frames
    specialization := .undeclared
    pendingTemplate := none
    instantiationArgs := none }

/-- The scope inside the context that is opened next. -/
def Scope.inside (scope : Scope) (s : State) : Scope :=
  { scope with context := s.unit.contexts.size }

/-! ## Effects -/

variable (P : QualType → Prop)

/-- The simple things a walk does in a scope. -/
inductive Update (scope : Scope) (s : State) : State → Prop where
  | tooDeep (line : Nat) : Update scope s { s with tooDeepAt := s.tooDeepAt.or (some line) }
  | alias (name : String) (target : QualType) (htype : P target) :
      Update scope s
        { s with unit := { s.unit with types := s.unit.types.addAlias name target } }
  | enum (name : String) (isScoped : Bool) :
      Update scope s
        { s with unit := { s.unit with types := s.unit.types.addEnum name isScoped } }
  | knownRecord (name : String) : Update scope s { s with knownRecords := name :: s.knownRecords }
  | name (name : String) (ty : QualType) (htype : P ty) :
      Update scope s { s with frames := s.frames.modifyHead ((name, ty) :: ·) }
  /-- A declaration stands in the context of the scope: a field in a record, a parameter in a
  function. -/
  | value (decl : ValueDecl) (hcontext : decl.context = scope.context) (htype : P decl.ty)
      (hfield : decl.kind = .field → s.kindAt decl.context = .record)
      (hparameter : decl.kind = .parameter → (s.kindAt decl.context).isFunctionLike = true) :
      Update scope s { s with unit := s.unit.addEntity (.value decl) }
  | cast (expr : StaticCast) (hcontext : expr.context = scope.context)
      (htype : P expr.destination) :
      Update scope s { s with unit := s.unit.addEntity (.cast expr) }
  | use (use : TemplateUse) (hdepth : use.depth = scope.depth)
      (hkind : use.kind.isInstantiation = true)
      (hexplicit : ∀ ty, some ty ∈ use.explicit → P ty)
      (hargs : ∀ ty, some ty ∈ use.callArgs → P ty) :
      Update scope s { s with uses := s.uses.push use }

/-- The call operator of a lambda is recorded if its return type is written. `index` is the context
of the lambda. -/
inductive CallOperator (index : Nat) (s : State) : State → Prop where
  | unwritten : CallOperator index s s
  | written (decl : FunctionDecl) (hcontext : decl.context = index) (hkind : decl.kind = .method)
      (hname : decl.name = "operator()") (htype : P decl.returnType) :
      CallOperator index s { s with unit := s.unit.addEntity (.function decl) }

/-- A function is registered as a template if template parameters were waiting for it. It remembers
the scope it is declared in. -/
inductive Registration (scope : Scope) (pending : Option (List TemplateParam)) (s : State) :
    State → Prop where
  | ordinary : Registration scope pending s s
  | template (template : FunctionTemplate) (hparams : pending = some template.params)
      (hcontext : template.context = scope.context) (hrecords : template.records = scope.records)
      (htypes : ∀ ty ∈ template.paramTypes, P ty) :
      Registration scope pending s { s with templates := template.register s.templates }

/-- What walking a part of the tree in a scope can do to the state. -/
inductive Effect : Scope → State → State → Prop where
  | refl {scope : Scope} {s : State} : Effect scope s s
  | trans {scope : Scope} {s t u : State} (first : Effect scope s t) (second : Effect scope t u) :
      Effect scope s u
  | update {scope : Scope} {s t : State} (h : Update P scope s t) : Effect scope s t
  | block {scope : Scope} {s t : State}
      (body : Effect scope { s with frames := [] :: s.frames } t) :
      Effect scope s { t with frames := t.frames.tail }
  | namespaceBody {scope : Scope} {s t : State} (name : String)
      (body : Effect (scope.inside s) (s.opened scope .namespaceBody name .undeclared) t) :
      Effect scope s t
  | record {scope : Scope} {s t : State} (name : String)
      (body : Effect { scope.inside s with records := name :: scope.records }
        { s.opened scope .record name .undeclared with frames := [] :: s.frames } t) :
      Effect scope s { t with frames := t.frames.tail }
  | lambda {scope : Scope} {s t u v : State}
      (result : Effect (scope.inside s)
        { s.opened scope .method "operator()" .undeclared with frames := [] :: s.frames } t)
      (operator : CallOperator P s.unit.contexts.size t u)
      (body : Effect (scope.inside s) u v) :
      Effect scope s { v with frames := v.frames.tail }
  | function {scope : Scope} {s t u v : State} (decl : FunctionDecl)
      (hcontext : decl.context = s.unit.contexts.size) (hkind : decl.kind.isFunctionLike = true)
      (htype : P decl.returnType)
      (params : Effect (scope.inside s) (s.functionOpened scope decl) t)
      (registration : Registration P scope s.pendingTemplate t u)
      (body : Effect (scope.inside s) u v) :
      Effect scope s { v with frames := v.frames.tail }
  | specialization {scope : Scope} {s t : State}
      (body : Effect scope { s with specialization := .explicitSpecialization } t) :
      Effect scope s { t with specialization := s.specialization }
  | typeParams {scope : Scope} {s t : State} (names : List String)
      (body : Effect { scope with typeParams := names :: scope.typeParams } s t) : Effect scope s t
  /-- A template in front of its function: the parameters wait for it, and are dropped if it does
  not come. -/
  | template {scope : Scope} {s t : State} (pending : Option (List TemplateParam))
      (hpending : pending = s.pendingTemplate ∨
        ∃ params, pending = some params ∧ ∀ param ∈ params, ∀ ty ∈ param.default, P ty)
      (body : Effect scope { s with pendingTemplate := pending } t) :
      Effect scope s { t with pendingTemplate := none }

variable {P} {scope : Scope} {s t : State}

/-! ## What effects leave alone -/

theorem Update.contexts_eq (h : Update P scope s t) : t.unit.contexts = s.unit.contexts := by
  cases h <;> rfl

theorem CallOperator.contexts_eq {index : Nat} (h : CallOperator P index s t) :
    t.unit.contexts = s.unit.contexts := by
  cases h <;> rfl

theorem Registration.unit_eq {pending : Option (List TemplateParam)}
    (h : Registration P scope pending s t) : t.unit = s.unit := by
  cases h <;> rfl

theorem Registration.frames_eq {pending : Option (List TemplateParam)}
    (h : Registration P scope pending s t) : t.frames = s.frames := by
  cases h <;> rfl

theorem contexts_prefix_addContext (unit : CompilationUnit) (context : DeclContext) :
    unit.contexts.toList <+: (unit.addContext context).contexts.toList := by
  simp [CompilationUnit.addContext]

-- Contexts are only added, and those there are stay what they are.
theorem Effect.contexts_prefix (h : Effect P scope s t) :
    s.unit.contexts.toList <+: t.unit.contexts.toList := by
  induction h with
  | refl => exact List.prefix_rfl
  | trans _ _ ihFirst ihSecond => exact ihFirst.trans ihSecond
  | update h => exact ⟨[], by rw [List.append_nil, h.contexts_eq]⟩
  | block _ ih | specialization _ ih | typeParams _ _ ih | template _ _ _ ih => exact ih
  | namespaceBody _ _ ih | record _ _ ih => exact (contexts_prefix_addContext _ _).trans ih
  | lambda _ operator _ ihResult ihBody =>
    rw [operator.contexts_eq] at ihBody
    exact (contexts_prefix_addContext _ _).trans (ihResult.trans ihBody)
  | function _ _ _ _ _ registration _ ihParams ihBody =>
    rw [registration.unit_eq] at ihBody
    exact (contexts_prefix_addContext _ _).trans (ihParams.trans ihBody)

theorem Effect.context?_eq_some (h : Effect P scope s t) {index : Nat} {context : DeclContext}
    (hcontext : s.unit.context? index = some context) :
    t.unit.context? index = some context := by
  unfold CompilationUnit.context? at *
  obtain ⟨added, hadded⟩ := h.contexts_prefix
  rw [← Array.getElem?_toList] at *
  rw [← hadded, List.getElem?_append_left (List.getElem?_eq_some_iff.mp hcontext).1, hcontext]

theorem Effect.kindAt_eq (h : Effect P scope s t) {index : Nat}
    (hkind : s.kindAt index ≠ .file) : t.kindAt index = s.kindAt index := by
  unfold State.kindAt at *
  cases hcontext : s.unit.context? index with
  | none => rw [hcontext] at hkind; exact absurd rfl hkind
  | some context => rw [h.context?_eq_some hcontext]

/-! ## Types in scope -/

/-- All names in scope have types of which the predicate holds. -/
def FramesTyped (P : QualType → Prop) (frames : List Bindings) : Prop :=
  ∀ frame ∈ frames, ∀ binding ∈ frame, P binding.2

theorem FramesTyped.push {frames : List Bindings} (h : FramesTyped P frames) :
    FramesTyped P ([] :: frames) := by
  intro frame hframe
  rcases List.mem_cons.mp hframe with rfl | hrest
  · simp
  · exact h frame hrest

theorem FramesTyped.tail {frames : List Bindings} (h : FramesTyped P frames) :
    FramesTyped P frames.tail :=
  fun frame hframe => h frame (List.mem_of_mem_tail hframe)

theorem FramesTyped.declare {frames : List Bindings} (h : FramesTyped P frames) (name : String)
    {ty : QualType} (htype : P ty) : FramesTyped P (frames.modifyHead ((name, ty) :: ·)) := by
  cases frames with
  | nil => exact h
  | cons frame rest =>
    intro f hf binding hbinding
    rw [List.modifyHead_cons] at hf
    rcases List.mem_cons.mp hf with rfl | hrest
    · rcases List.mem_cons.mp hbinding with rfl | hold
      · exact htype
      · exact h frame List.mem_cons_self binding hold
    · exact h f (List.mem_cons_of_mem _ hrest) binding hbinding

theorem Update.framesTyped (h : Update P scope s t) (hs : FramesTyped P s.frames) :
    FramesTyped P t.frames := by
  cases h with
  | name name ty htype => exact hs.declare name htype
  | _ => exact hs

theorem Effect.framesTyped (h : Effect P scope s t) (hs : FramesTyped P s.frames) :
    FramesTyped P t.frames := by
  induction h with
  | refl => exact hs
  | trans _ _ ihFirst ihSecond => exact ihSecond (ihFirst hs)
  | update h => exact h.framesTyped hs
  | block _ ih | record _ _ ih => exact (ih hs.push).tail
  | namespaceBody _ _ ih | specialization _ ih | typeParams _ _ ih | template _ _ _ ih =>
    exact ih hs
  | lambda _ operator _ ihResult ihBody =>
    have hresult := ihResult hs.push
    refine (ihBody ?_).tail
    cases operator <;> exact hresult
  | function _ _ _ _ _ registration _ ihParams ihBody =>
    refine (ihBody ?_).tail
    rw [registration.frames_eq]
    exact ihParams hs.push

end Lowering

end WidthCheck
