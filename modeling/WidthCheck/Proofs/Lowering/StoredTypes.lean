import WidthCheck.Proofs.CType.Normal
import WidthCheck.Proofs.Lowering.Invariant
import WidthCheck.Proofs.Rule.NoLong

/-!
# The types that a lowering stores

If every way of making a type respects a predicate, then it holds of all types that a lowering
stores, and of all template arguments that it instantiates. Normal types are such a predicate, which
is why a classification that looks through one reference and compares spellings misses nothing.
-/

namespace WidthCheck

/-- The types that a unit stores: those of values, returned by functions, that casts lead to, and
that aliases stand for. -/
def CompilationUnit.storedTypes (unit : CompilationUnit) : List QualType :=
  unit.entities.toList.map NoLong.matchedType ++ unit.types.aliases.map Prod.snd

namespace Lowering

variable {P : QualType → Prop} {scope : Scope} {s t u : State}

/-! ## What a walk stores -/

/-- The default arguments of template parameters are such that the predicate holds. -/
def DefaultsTyped (P : QualType → Prop) (params : List TemplateParam) : Prop :=
  ∀ param ∈ params, ∀ ty ∈ param.default, P ty

/-- The types that a use of a template writes or calls it with are such that the predicate holds. -/
structure UseTyped (P : QualType → Prop) (use : TemplateUse) : Prop where
  explicit : ∀ ty, some ty ∈ use.explicit → P ty
  callArgs : ∀ ty, some ty ∈ use.callArgs → P ty

structure TemplateTyped (P : QualType → Prop) (template : FunctionTemplate) : Prop where
  defaults : DefaultsTyped P template.params
  paramTypes : ∀ ty ∈ template.paramTypes, P ty

/-- All types in a state, those of the names in scope apart, are such that the predicate holds. -/
structure Typed (P : QualType → Prop) (s : State) : Prop where
  entities : ∀ entity ∈ s.unit.entities, P (NoLong.matchedType entity)
  aliases : ∀ entry ∈ s.unit.types.aliases, P entry.2
  pending : ∀ params ∈ s.pendingTemplate, DefaultsTyped P params
  templates : ∀ template ∈ s.templates, TemplateTyped P template
  uses : ∀ use ∈ s.uses, UseTyped P use
  instantiated : ∀ pair ∈ s.instantiated, ∀ ty ∈ pair.2, P ty

theorem Typed.addEntity (h : Typed P s) {entity : Entity} (htype : P (NoLong.matchedType entity)) :
    Typed P { s with unit := s.unit.addEntity entity } := by
  refine { h with entities := fun other hother => ?_ }
  rcases Array.mem_push.mp hother with hold | rfl
  · exact h.entities other hold
  · exact htype

theorem Typed.storedTypes (h : Typed P s) : ∀ ty ∈ s.unit.storedTypes, P ty := by
  intro ty hty
  rcases List.mem_append.mp hty with hentity | halias
  · obtain ⟨entity, hmem, rfl⟩ := List.mem_map.mp hentity
    exact h.entities entity (Array.mem_toList_iff.mp hmem)
  · obtain ⟨entry, hmem, rfl⟩ := List.mem_map.mp halias
    exact h.aliases entry hmem

theorem Update.typed (h : Update P scope s t) (hs : Typed P s) : Typed P t := by
  cases h with
  | value decl _ htype | cast decl _ htype => exact hs.addEntity htype
  | «alias» name target htype =>
    refine { hs with aliases := fun entry hentry => ?_ }
    rcases List.mem_cons.mp hentry with rfl | hold
    · exact htype
    · exact hs.aliases entry hold
  | use use _ _ hexplicit hargs =>
    refine { hs with uses := fun other hother => ?_ }
    rcases Array.mem_push.mp hother with hold | rfl
    · exact hs.uses other hold
    · exact ⟨hexplicit, hargs⟩
  | _ => exact { hs with }

theorem CallOperator.typed {index : Nat} (h : CallOperator P index s t) (hs : Typed P s) :
    Typed P t := by
  cases h with
  | unwritten => exact hs
  | written decl _ _ _ htype => exact hs.addEntity htype

theorem Registration.typed {pending : Option (List TemplateParam)}
    (h : Registration P scope pending s t) (hpending : ∀ params ∈ pending, DefaultsTyped P params)
    (hs : Typed P s) : Typed P t := by
  cases h with
  | ordinary => exact hs
  | template template hparams _ _ htypes =>
    refine { hs with templates := fun other hother => ?_ }
    rcases FunctionTemplate.mem_register hother with rfl | hold
    · exact ⟨hpending _ hparams, htypes⟩
    · exact hs.templates other hold

theorem Effect.typed (h : Effect P scope s t) (hs : Typed P s) : Typed P t := by
  induction h with
  | refl => exact hs
  | trans _ _ ihFirst ihSecond => exact ihSecond (ihFirst hs)
  | update h => exact h.typed hs
  | typeParams _ _ ih => exact ih hs
  | block _ ih | record _ _ ih | specialization _ ih => exact { ih { hs with } with }
  | namespaceBody _ _ ih => exact ih { hs with }
  | lambda _ operator _ ihResult ihBody =>
    have hresult := ihResult { hs with }
    exact { ihBody (operator.typed hresult) with }
  | function decl _ _ htype _ registration _ ihParams ihBody =>
    have hopened := hs.addEntity (show P (NoLong.matchedType (.function decl)) from htype)
    have hparams := ihParams { hopened with pending := fun _ hnone => by cases hnone }
    -- The template takes over the parameters that were waiting before the function was opened.
    have hregistered := registration.typed hs.pending hparams
    exact { ihBody hregistered with }
  | template pending hpending _ ih =>
    have hstart : ∀ params ∈ pending, DefaultsTyped P params := by
      rcases hpending with rfl | ⟨params, rfl, hparams⟩
      · exact hs.pending
      · intro other hother
        obtain rfl := Option.some.inj hother
        exact hparams
    exact { ih { hs with pending := hstart } with pending := fun _ hnone => by cases hnone }

/-! ## What a use deduces -/

/-- All types of bindings are such that the predicate holds. -/
def BindingsTyped (P : QualType → Prop) (bindings : Bindings) : Prop :=
  ∀ binding ∈ bindings, P binding.2

theorem BindingsTyped.cons {bound : Bindings} (h : BindingsTyped P bound) (name : String)
    {ty : QualType} (htype : P ty) : BindingsTyped P ((name, ty) :: bound) := by
  intro binding hbinding
  rcases List.mem_cons.mp hbinding with rfl | hold
  · exact htype
  · exact h binding hold

theorem BindingsTyped.lookup {bound : Bindings} (h : BindingsTyped P bound) {name : String}
    {ty : QualType} (hlookup : bound.lookup name = some ty) : P ty := by
  obtain ⟨front, back, hbound, -⟩ := List.lookup_eq_some_iff.mp hlookup
  exact h (name, ty) (by simp [hbound])

theorem bindExplicit_typed {params : List TemplateParam} {args : List (Option QualType)}
    {bound result : Bindings} (hargs : ∀ ty, some ty ∈ args → P ty) (hbound : BindingsTyped P bound)
    (h : bindExplicit params args bound = some result) : BindingsTyped P result := by
  fun_induction bindExplicit params args bound with
  | case1 | case3 => cases h
  | case2 param params args bound _ ty _ ih =>
    have hty : P ty := hargs ty List.mem_cons_self
    exact ih (fun other hother => hargs other (List.mem_cons_of_mem _ hother))
      (hbound.cons param.name hty) h
  | case4 param params arg args bound _ ih =>
    exact ih (fun other hother => hargs other (List.mem_cons_of_mem _ hother)) hbound h
  | case5 =>
    obtain rfl := Option.some.inj h
    exact hbound

theorem bindCall_typed (hP : TypeClosed P) {patterns : List QualType}
    {args : List (Option QualType)} {bound : Bindings} (hargs : ∀ ty, some ty ∈ args → P ty)
    (hbound : BindingsTyped P bound) : BindingsTyped P (bindCall patterns args bound) := by
  fun_induction bindCall patterns args bound with
  | case1 pattern patterns args bound name ty _ _ ih =>
    exact ih (fun other hother => hargs other (List.mem_cons_of_mem _ hother)) hbound
  | case2 pattern patterns args bound name ty _ _ ih =>
    have hty : P ty.referee.unqualified :=
      hP.unqualified _ (hP.referee _ (hargs ty List.mem_cons_self))
    exact ih (fun other hother => hargs other (List.mem_cons_of_mem _ hother))
      (hbound.cons name hty)
  | case3 pattern patterns arg args bound _ ih =>
    exact ih (fun other hother => hargs other (List.mem_cons_of_mem _ hother)) hbound
  | case4 => exact hbound

theorem mapM_chosenArgument_typed {bound : Bindings} (hbound : BindingsTyped P bound)
    {params : List TemplateParam} (hdefaults : DefaultsTyped P params) {args : List QualType}
    (h : params.mapM (chosenArgument bound) = some args) : ∀ ty ∈ args, P ty := by
  induction params generalizing args with
  | nil =>
    obtain rfl := Option.some.inj h
    intro ty hty
    cases hty
  | cons param params ih =>
    rw [List.mapM_cons] at h
    obtain ⟨first, hfirst, hrest⟩ := Option.bind_eq_some_iff.mp h
    obtain ⟨rest, hargs, hcons⟩ := Option.bind_eq_some_iff.mp hrest
    obtain rfl := Option.some.inj hcons
    have hty : P first := by
      rcases Option.or_eq_some_iff.mp hfirst with hlookup | ⟨-, hdefault⟩
      · exact hbound.lookup hlookup
      · exact hdefaults param List.mem_cons_self first hdefault
    intro ty hmem
    rcases List.mem_cons.mp hmem with rfl | hold
    · exact hty
    · exact ih (fun other hother => hdefaults other (List.mem_cons_of_mem _ hother)) hargs ty hold

theorem deduce_typed (hP : TypeClosed P) {template : FunctionTemplate} {use : TemplateUse}
    {args : List QualType} (htemplate : TemplateTyped P template) (huse : UseTyped P use)
    (h : deduce template use = some args) : ∀ ty ∈ args, P ty := by
  unfold deduce at h
  split at h
  · cases h
  · rename_i bound hbound
    have hexplicit : BindingsTyped P bound :=
      bindExplicit_typed huse.explicit (fun _ hnone => absurd hnone List.not_mem_nil) hbound
    refine mapM_chosenArgument_typed (bindCall_typed hP huse.callArgs hexplicit) ?_ h
    intro param hparam
    exact htemplate.defaults param (List.mem_filter.mp hparam).1

/-! ## Whole lowerings -/

/-- All types in a state are such that the predicate holds. -/
def AllTyped (P : QualType → Prop) (s : State) : Prop := Typed P s ∧ FramesTyped P s.frames

theorem framesTyped_initial : FramesTyped P [[]] := by
  intro frame hframe binding hbinding
  rw [List.mem_singleton.mp hframe] at hbinding
  cases hbinding

theorem typed_initial : Typed P {} where
  entities _ hentity := absurd hentity (Array.not_mem_empty _)
  aliases _ hentry := absurd hentry List.not_mem_nil
  pending _ hnone := by cases hnone
  templates _ htemplate := absurd htemplate List.not_mem_nil
  uses _ huse := absurd huse (Array.not_mem_empty _)
  instantiated _ hpair := absurd hpair List.not_mem_nil

theorem sorted_allTyped (hP : TypeClosed P) (source : Source) (root : Node) :
    AllTyped P (sorted source root) := by
  have hready : Ready P { source } {} :=
    ⟨fun _ hbinding => absurd hbinding List.not_mem_nil, framesTyped_initial⟩
  have heffect : Effect P { source } {} (walked source root) :=
    ((walker_acts hP nestingLimit).visit _ root _ hready).1
  have hwalked := heffect.typed typed_initial
  refine ⟨{ hwalked with uses := fun use huse => ?_ }, heffect.framesTyped framesTyped_initial⟩
  exact hwalked.uses use (mem_sorted_iff.mp huse)

-- The arguments of an instantiation come from the use, from the call or from the defaults.
theorem maintains_allTyped (hP : TypeClosed P) (source : Source) :
    Maintains source (AllTyped P) (UseTyped P) where
  good_of_mem hs huse := hs.1.uses _ huse
  lowerPattern {s use index template args} hs huse htemplate hdeduce := by
    have htyped : TemplateTyped P template :=
      hs.1.templates template (List.mem_of_getElem? htemplate)
    have hargs : ∀ ty ∈ args, P ty := deduce_typed hP htyped huse hdeduce
    have hnoted : Typed P { s with instantiated := (index, args) :: s.instantiated } := by
      refine { hs.1 with instantiated := fun pair hpair => ?_ }
      rcases List.mem_cons.mp hpair with rfl | hold
      · exact hargs
      · exact hs.1.instantiated pair hold
    obtain ⟨t, heffect, hrun⟩ := lowerPattern_acts hP source template hargs use.kind use.depth
      (s := { s with instantiated := (index, args) :: s.instantiated }) hs.2
    have hend := heffect.typed { hnoted with }
    rw [hrun]
    exact ⟨{ hend with }, (heffect.framesTyped hs.2.push).tail⟩

theorem finalState_typed (hP : TypeClosed P) (source : Source) (root : Node) :
    Typed P (finalState source root) :=
  ((maintains_allTyped hP source).finalState (sorted_allTyped hP source root)).1

theorem typeClosed_isNormal : TypeClosed QualType.IsNormal where
  builtin _ _ h := QualType.isNormal_builtin (Builtin.isCanonical_of_canonical? h)
  named := QualType.isNormal_named
  templateParam := QualType.isNormal_templateParam
  number _ _ := QualType.isNormal_numberType?
  char := QualType.isNormal_charType
  withQuals _ quals h := h.withQuals quals
  pointerTo _ h := h.pointerTo
  lvalueRefTo _ h := h.lvalueRefTo
  rvalueRefTo _ h := h.rvalueRefTo
  arrayOf _ bound h := h.arrayOf bound
  functionReturning _ h := h.functionReturning
  returned _ _ h := h.1
  referee _ h := h.referee
  unqualified _ h := h.unqualified
  decay _ h := h.decay
  promote _ h := h.promote

end Lowering

namespace AmbiguousType

-- The classification looks through one reference and compares spellings. In a normal type no
-- other reference is left, and the spelling is the one that all orders of the keywords share.
theorem classify?_eq_some_iff_of_isNormal {ty : QualType} (h : ty.IsNormal)
    (type : AmbiguousType) :
    classify? ty = some type ↔ ∃ spelling quals,
      ty.belowReferences = .base .builtin spelling quals ∧
        Builtin.canonical? (Builtin.wordsOf spelling) = some type.spelling := by
  rw [classify?_eq_some_iff, h.belowReferences_eq]
  constructor
  · rintro ⟨quals, hreferee⟩
    exact ⟨type.spelling, quals, hreferee, by cases type <;> decide⟩
  · rintro ⟨spelling, quals, hreferee, hcanonical⟩
    have hnormal := h.referee
    rw [hreferee] at hnormal
    have hspelling : Builtin.canonical? (Builtin.wordsOf spelling) = some spelling := hnormal rfl
    rw [hspelling] at hcanonical
    obtain rfl := Option.some.inj hcanonical
    exact ⟨quals, hreferee⟩

end AmbiguousType

/-- Every type that a lowering stores is normal, and so are the arguments of every template that it
instantiates. A stored type is therefore classified exactly when the builtin below all of its
references has keywords that, in whatever order, spell an ambiguous type. -/
theorem Lowering.storedTypes_normal (source : Source) (root : Node) :
    (∀ ty ∈ (CompilationUnit.ofTree source root).storedTypes, ty.IsNormal ∧
      ∀ type, AmbiguousType.classify? ty = some type ↔ ∃ spelling quals,
        ty.belowReferences = .base .builtin spelling quals ∧
          Builtin.canonical? (Builtin.wordsOf spelling) = some type.spelling) ∧
    ∀ pair ∈ (finalState source root).instantiated, ∀ ty ∈ pair.2, ty.IsNormal := by
  have htyped := finalState_typed typeClosed_isNormal source root
  unfold CompilationUnit.ofTree
  refine ⟨fun ty hty => ?_, htyped.instantiated⟩
  have hnormal : ty.IsNormal := htyped.storedTypes ty hty
  exact ⟨hnormal, AmbiguousType.classify?_eq_some_iff_of_isNormal hnormal⟩

end WidthCheck
