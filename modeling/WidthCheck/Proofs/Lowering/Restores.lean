import WidthCheck.Proofs.Lowering.WalkEffect

/-!
# A walk restores the traversal state

What an effect leaves as it was, what it may use up, and what it only adds to. The scope is handed
down and never written to; that it is the right one shows in where the additions belong.
-/

namespace WidthCheck

/-- The context that an entity belongs to. A function belongs to the one it opens. -/
def Entity.context : Entity → Nat
  | .value decl => decl.context
  | .function decl => decl.context
  | .cast expr => expr.context

namespace Lowering

/-! ## Lists that only grow -/

/-- `after` is `before` with elements of this kind added at its end. -/
def Appends {α : Type} (kind : α → Prop) (before after : List α) : Prop :=
  ∃ added, after = before ++ added ∧ ∀ a ∈ added, kind a

namespace Appends

variable {α : Type} {kind weaker : α → Prop} {l m n : List α}

theorem refl : Appends kind l l :=
  ⟨[], by simp, by simp⟩

theorem push {a : α} (h : kind a) : Appends kind l (l ++ [a]) :=
  ⟨[a], rfl, by simpa using h⟩

theorem trans (first : Appends kind l m) (second : Appends kind m n) : Appends kind l n := by
  obtain ⟨added, rfl, hadded⟩ := first
  obtain ⟨more, rfl, hmore⟩ := second
  refine ⟨added ++ more, by rw [List.append_assoc], fun a ha => ?_⟩
  rcases List.mem_append.mp ha with ha | ha
  · exact hadded a ha
  · exact hmore a ha

theorem mono (h : Appends kind l m) (hkind : ∀ a, kind a → weaker a) : Appends weaker l m := by
  obtain ⟨added, hm, hadded⟩ := h
  exact ⟨added, hm, fun a ha => hkind a (hadded a ha)⟩

theorem isPrefix (h : Appends kind l m) : l <+: m := by
  obtain ⟨added, rfl, -⟩ := h
  exact List.prefix_append _ _

end Appends

/-! ## What is kept -/

/-- The traversal state is as it was, or what waited for a function has been used up. -/
structure Kept (s t : State) : Prop where
  height : t.frames.length = s.frames.length
  below : t.frames.tail = s.frames.tail
  specialization : t.specialization = s.specialization ∨ t.specialization = .undeclared
  pendingTemplate : t.pendingTemplate = s.pendingTemplate ∨ t.pendingTemplate = none
  instantiationArgs : t.instantiationArgs = s.instantiationArgs ∨ t.instantiationArgs = none
  instantiated : t.instantiated = s.instantiated
  tooDeepAt : ∀ line, s.tooDeepAt = some line → t.tooDeepAt = some line

namespace Kept

variable {s t u : State}

theorem refl : Kept s s :=
  ⟨rfl, rfl, .inl rfl, .inl rfl, .inl rfl, rfl, fun _ h => h⟩

theorem trans (first : Kept s t) (second : Kept t u) : Kept s u where
  height := second.height.trans first.height
  below := second.below.trans first.below
  specialization := by
    rcases second.specialization with h | h
    · rw [h]; exact first.specialization
    · exact .inr h
  pendingTemplate := by
    rcases second.pendingTemplate with h | h
    · rw [h]; exact first.pendingTemplate
    · exact .inr h
  instantiationArgs := by
    rcases second.instantiationArgs with h | h
    · rw [h]; exact first.instantiationArgs
    · exact .inr h
  instantiated := second.instantiated.trans first.instantiated
  tooDeepAt line h := second.tooDeepAt line (first.tooDeepAt line h)

-- Building the unit leaves the traversal state alone.
theorem unit (unit : CompilationUnit) : Kept s { s with unit := unit } :=
  ⟨rfl, rfl, .inl rfl, .inl rfl, .inl rfl, rfl, fun _ h => h⟩

-- A block is dropped with all that was declared in it.
theorem block (h : Kept { s with frames := [] :: s.frames } t) :
    Kept s { t with frames := t.frames.tail } := by
  have htail : t.frames.tail = s.frames := h.below
  exact ⟨congrArg List.length htail, congrArg List.tail htail, h.specialization,
    h.pendingTemplate, h.instantiationArgs, h.instantiated, h.tooDeepAt⟩

end Kept

variable {P : QualType → Prop} {scope : Scope} {s t u : State}

theorem Update.kept (h : Update P scope s t) : Kept s t := by
  cases h with
  | tooDeep line =>
    refine ⟨rfl, rfl, .inl rfl, .inl rfl, .inl rfl, rfl, fun first hfirst => ?_⟩
    change s.tooDeepAt.or (some line) = some first
    rw [hfirst, Option.some_or]
  | name name ty =>
    refine ⟨?_, ?_, .inl rfl, .inl rfl, .inl rfl, rfl, fun _ h => h⟩
    · exact List.length_modifyHead
    · exact List.tail_modifyHead
  | _ => exact ⟨rfl, rfl, .inl rfl, .inl rfl, .inl rfl, rfl, fun _ h => h⟩

theorem CallOperator.kept {index : Nat} (h : CallOperator P index s t) : Kept s t := by
  cases h with
  | unwritten => exact .refl
  | written decl => exact .unit _

theorem Registration.kept {pending : Option (List TemplateParam)}
    (h : Registration P scope pending s t) : Kept s t := by
  cases h with
  | ordinary => exact .refl
  | template => exact ⟨rfl, rfl, .inl rfl, .inl rfl, .inl rfl, rfl, fun _ h => h⟩

theorem Effect.kept (h : Effect P scope s t) : Kept s t := by
  induction h with
  | refl => exact .refl
  | trans _ _ ihFirst ihSecond => exact ihFirst.trans ihSecond
  | update h => exact h.kept
  | block _ ih => exact ih.block
  | namespaceBody _ _ ih => exact (Kept.unit _).trans ih
  | typeParams _ _ ih => exact ih
  | record _ _ ih => exact ((Kept.unit _).trans ih).block
  | lambda _ operator _ ihResult ihBody =>
    exact ((Kept.unit _).trans (ihResult.trans (operator.kept.trans ihBody))).block
  | function decl _ _ _ _ registration _ ihParams ihBody =>
    -- Opening the function has used up all that waited for it.
    have hinside := ihParams.trans (registration.kept.trans ihBody)
    have hspecialization := hinside.specialization.elim id id
    have hpending := hinside.pendingTemplate.elim id id
    have hargs := hinside.instantiationArgs.elim id id
    have htail := hinside.below
    exact ⟨congrArg List.length htail, congrArg List.tail htail, .inr hspecialization,
      .inr hpending, .inr hargs, hinside.instantiated, hinside.tooDeepAt⟩
  | specialization _ ih =>
    exact ⟨ih.height, ih.below, .inl rfl, ih.pendingTemplate, ih.instantiationArgs,
      ih.instantiated, ih.tooDeepAt⟩
  | template _ _ _ ih =>
    exact ⟨ih.height, ih.below, ih.specialization, .inr rfl, ih.instantiationArgs,
      ih.instantiated, ih.tooDeepAt⟩

/-! ## What is added -/

/-- The context of the scope, or one opened since there were `size` of them. -/
def Within (scope : Scope) (size context : Nat) : Prop :=
  context = scope.context ∨ size ≤ context

theorem Within.mono {size larger context : Nat} (h : Within scope larger context)
    (hsize : size ≤ larger) : Within scope size context :=
  h.imp id (Nat.le_trans hsize)

/-- A context that opens within the scope. -/
def OpensWithin (scope : Scope) (size : Nat) (context : DeclContext) : Prop :=
  ∃ parent, context.parent = some parent ∧ Within scope size parent

theorem FunctionTemplate.mem_register {template other : FunctionTemplate}
    {templates : List FunctionTemplate} (h : other ∈ template.register templates) :
    other = template ∨ other ∈ templates := by
  induction templates with
  | nil => exact .inl (List.mem_singleton.mp h)
  | cons first rest ih =>
    unfold FunctionTemplate.register at h
    split at h
    · rcases List.mem_cons.mp h with rfl | h
      · split
        · exact .inl rfl
        · exact .inr List.mem_cons_self
      · exact .inr (List.mem_cons_of_mem _ h)
    · rcases List.mem_cons.mp h with rfl | h
      · exact .inr List.mem_cons_self
      · exact (ih h).imp id (List.mem_cons_of_mem _)

/-- Entities, contexts and uses are only added, and templates registered, within the scope. -/
structure Grows (scope : Scope) (s t : State) : Prop where
  contexts : Appends (OpensWithin scope s.unit.contexts.size)
    s.unit.contexts.toList t.unit.contexts.toList
  entities : Appends (fun entity => Within scope s.unit.contexts.size entity.context)
    s.unit.entities.toList t.unit.entities.toList
  uses : Appends (fun use => use.depth = scope.depth ∧ use.kind.isInstantiation = true)
    s.uses.toList t.uses.toList
  templates : ∀ template ∈ t.templates, template ∈ s.templates ∨
    Within scope s.unit.contexts.size template.context ∧ scope.records <:+ template.records

namespace Grows

theorem refl : Grows scope s s :=
  ⟨.refl, .refl, .refl, fun _ => .inl⟩

theorem size_le (h : Grows scope s t) : s.unit.contexts.size ≤ t.unit.contexts.size :=
  h.contexts.isPrefix.length_le

theorem trans (first : Grows scope s t) (second : Grows scope t u) : Grows scope s u := by
  have hsize := first.size_le
  refine ⟨first.contexts.trans (second.contexts.mono ?_),
    first.entities.trans (second.entities.mono fun _ h => h.mono hsize),
    first.uses.trans second.uses, fun template htemplate => ?_⟩
  · rintro context ⟨parent, hparent, hwithin⟩
    exact ⟨parent, hparent, hwithin.mono hsize⟩
  · rcases second.templates template htemplate with h | h
    · exact first.templates template h
    · exact .inr ⟨h.1.mono hsize, h.2⟩

-- What is added inside a context that opens next is added within the scope around it.
theorem inside {inner : Scope} {opened : State} (h : Grows inner opened t)
    (hopened : Grows scope s opened) (hcontext : inner.context = s.unit.contexts.size)
    (hdepth : inner.depth = scope.depth) (hrecords : scope.records <:+ inner.records) :
    Grows scope s t := by
  have hwithin : ∀ context, Within inner opened.unit.contexts.size context →
      Within scope s.unit.contexts.size context := by
    intro context hin
    have hsize := hopened.size_le
    rcases hin with hin | hin
    · exact .inr (by omega)
    · exact .inr (by omega)
  have huses := h.uses
  rw [hdepth] at huses
  refine ⟨hopened.contexts.trans (h.contexts.mono ?_),
    hopened.entities.trans (h.entities.mono fun _ h => hwithin _ h),
    hopened.uses.trans huses, fun template htemplate => ?_⟩
  · rintro context ⟨parent, hparent, hin⟩
    exact ⟨parent, hparent, hwithin parent hin⟩
  · rcases h.templates template htemplate with h | h
    · exact hopened.templates template h
    · exact .inr ⟨hwithin _ h.1, hrecords.trans h.2⟩

theorem opened (s : State) (scope : Scope) (kind : ContextKind) (name : String)
    (specialization : Specialization) (frames : List Bindings) :
    Grows scope s { s.opened scope kind name specialization with frames := frames } := by
  refine ⟨?_, .refl, .refl, fun _ => .inl⟩
  simp only [State.opened, CompilationUnit.addContext, Array.toList_push]
  exact .push ⟨scope.context, rfl, .inl rfl⟩

theorem addEntity {entity : Entity} (h : Within scope s.unit.contexts.size entity.context) :
    Grows scope s { s with unit := s.unit.addEntity entity } := by
  refine ⟨.refl, ?_, .refl, fun _ => .inl⟩
  simp only [CompilationUnit.addEntity, Array.toList_push]
  exact .push h

theorem functionOpened {decl : FunctionDecl} (hcontext : decl.context = s.unit.contexts.size) :
    Grows scope s (s.functionOpened scope decl) := by
  have hopened := opened s scope decl.kind decl.name s.specialization s.frames
  refine ⟨hopened.contexts, ?_, .refl, fun _ => .inl⟩
  simp only [State.functionOpened, State.opened, CompilationUnit.addEntity,
    CompilationUnit.addContext, Array.toList_push]
  exact .push (.inr (Nat.le_of_eq hcontext.symm))

end Grows

theorem Update.grows (h : Update P scope s t) : Grows scope s t := by
  cases h with
  | value decl hcontext => exact .addEntity (.inl hcontext)
  | cast expr hcontext => exact .addEntity (.inl hcontext)
  | use use hdepth hkind =>
    refine ⟨.refl, .refl, ?_, fun _ => .inl⟩
    simp only [Array.toList_push]
    exact .push ⟨hdepth, hkind⟩
  | _ => exact ⟨.refl, .refl, .refl, fun _ => .inl⟩

theorem CallOperator.grows {index : Nat} (hscope : scope.context = index)
    (h : CallOperator P index s t) : Grows scope s t := by
  cases h with
  | unwritten => exact .refl
  | written decl hcontext => exact .addEntity (.inl (hcontext.trans hscope.symm))

theorem Registration.grows {pending : Option (List TemplateParam)}
    (h : Registration P scope pending s t) : Grows scope s t := by
  cases h with
  | ordinary => exact .refl
  | template template _ hcontext hrecords =>
    refine ⟨.refl, .refl, .refl, fun other hother => ?_⟩
    rcases FunctionTemplate.mem_register hother with rfl | hother
    · exact .inr ⟨.inl hcontext, hrecords ▸ List.suffix_rfl⟩
    · exact .inl hother

theorem Effect.grows (h : Effect P scope s t) : Grows scope s t := by
  induction h with
  | refl => exact .refl
  | trans _ _ ihFirst ihSecond => exact ihFirst.trans ihSecond
  | update h => exact h.grows
  | block _ ih | typeParams _ _ ih | specialization _ ih | template _ _ _ ih =>
    exact ⟨ih.contexts, ih.entities, ih.uses, ih.templates⟩
  | namespaceBody _ _ ih => exact ih.inside (.opened _ _ _ _ _ _) rfl rfl List.suffix_rfl
  | record _ _ ih =>
    have hinside := ih.inside (.opened _ _ _ _ _ _) rfl rfl (List.suffix_cons _ _)
    exact ⟨hinside.contexts, hinside.entities, hinside.uses, hinside.templates⟩
  | lambda _ operator _ ihResult ihBody =>
    have hinner := ihResult.trans ((operator.grows rfl).trans ihBody)
    have hinside := hinner.inside (.opened _ _ _ _ _ _) rfl rfl List.suffix_rfl
    exact ⟨hinside.contexts, hinside.entities, hinside.uses, hinside.templates⟩
  | function decl hcontext _ _ _ registration _ ihParams ihBody =>
    -- The template belongs to the scope around the function, the rest to the one inside.
    have hparams := ihParams.inside (.functionOpened hcontext) rfl rfl List.suffix_rfl
    have hinside := ihBody.inside (hparams.trans registration.grows) rfl rfl List.suffix_rfl
    exact ⟨hinside.contexts, hinside.entities, hinside.uses, hinside.templates⟩

/-! ## Walks -/

/-- A walk in a scope restores what it must and adds within the scope. -/
structure Restores (scope : Scope) (s t : State) : Prop extends Kept s t, Grows scope s t

theorem Effect.restores (h : Effect P scope s t) : Restores scope s t :=
  ⟨h.kept, h.grows⟩

-- Whatever the state and the scope, visiting a node has an effect.
theorem visit_effect (levels : Nat) (scope : Scope) (node : Node) (s : State) :
    Effect (fun _ => True) scope s ((walker levels).visit scope node s).2 :=
  ((walker_acts .univ levels).visit scope node s
    ⟨fun _ _ => trivial, fun _ _ _ _ => trivial⟩).1

end Lowering

end WidthCheck
