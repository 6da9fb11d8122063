import WidthCheck.CType.Literal
import WidthCheck.Lowering.Types
import WidthCheck.Proofs.Lowering.Acts

/-!
# Lowering a written type has an effect

A written type has an effect only through the records and enumerations that are defined in it, and
what it denotes is built from names, builtins and types in scope.
-/

namespace WidthCheck.Lowering

/-- A predicate on types that every way of making a type in a lowering respects. -/
structure TypeClosed (P : QualType → Prop) : Prop where
  builtin : ∀ words spelling, Builtin.canonical? words = some spelling → P (.builtin spelling)
  named : ∀ name, P (.named name)
  templateParam : ∀ name, P (.templateParam name)
  number : ∀ token ty, Literal.numberType? token = some ty → P ty
  char : ∀ token, P (Literal.charType token)
  withQuals : ∀ ty quals, P ty → P (ty.withQuals quals)
  pointerTo : ∀ ty, P ty → P ty.pointerTo
  lvalueRefTo : ∀ ty, P ty → P ty.lvalueRefTo
  rvalueRefTo : ∀ ty, P ty → P ty.rvalueRefTo
  arrayOf : ∀ ty bound, P ty → P (ty.arrayOf bound)
  functionReturning : ∀ ty, P ty → P ty.functionReturning
  returned : ∀ ty quals, P (.layer .function ty quals) → P ty
  referee : ∀ ty, P ty → P ty.referee
  unqualified : ∀ ty, P ty → P ty.unqualified
  decay : ∀ ty, P ty → P ty.decay
  promote : ∀ ty, P ty → P ty.promote

-- The predicate that holds of every type is closed.
theorem TypeClosed.univ : TypeClosed fun _ => True := by
  constructor <;> intros <;> trivial

variable {P : QualType → Prop} {visit : Scope → Node → Lowering Unit} {scope : Scope}

theorem resolve_of_ready (hP : TypeClosed P) {s : State} (hs : Ready P scope s) (name : String) :
    P (scope.resolve name) := by
  unfold Scope.resolve
  split
  · rename_i arg hlookup
    obtain ⟨front, back, hbindings, -⟩ := List.lookup_eq_some_iff.mp hlookup
    exact hs.bindings (name, arg) (by simp [hbindings])
  · split
    · exact hP.templateParam name
    · exact hP.named name

-- The base type of a declaration without specifier.
theorem TypeClosed.void (hP : TypeClosed P) : P (.builtin "void") :=
  hP.builtin ["void"] "void" (by decide)

theorem lowerSpecifier_acts (hP : TypeClosed P) (hvisit : VisitActs P visit)
    (specifier : Specifier) :
    Acts P scope (Ready P scope) (lowerSpecifier visit scope specifier) P := by
  cases specifier with
  | absent => exact .pure hP.void
  | keywords words quals =>
    refine .result fun s hs => hP.withQuals _ _ ?_
    split
    · rename_i spelling hspelling
      exact hP.builtin words spelling hspelling
    · exact resolve_of_ready hP hs _
  | name text => exact .result fun s hs => resolve_of_ready hP hs text
  | placeholder text | verbatim text => exact .pure (hP.named text)
  | definition node name =>
    exact .bind Ready.stable (hvisit scope node) fun _ _ => .pure (hP.named _)

mutual

theorem applyDeclarator_acts (hP : TypeClosed P) (hvisit : VisitActs P visit)
    (declarator : Declarator) (ty : QualType) (params : Option Node) (hty : P ty) :
    Acts P scope (Ready P scope) (applyDeclarator visit scope declarator ty params)
      fun declared => P declared.ty := by
  cases declarator with
  | anonymous | named node => exact .pure hty
  | pointer quals inner =>
    exact applyDeclarator_acts hP hvisit inner _ _ (hP.withQuals _ _ (hP.pointerTo _ hty))
  | reference rvalue inner =>
    apply applyDeclarator_acts hP hvisit inner
    split
    · exact hP.rvalueRefTo _ hty
    · exact hP.lvalueRefTo _ hty
  | array bound inner => exact applyDeclarator_acts hP hvisit inner _ _ (hP.arrayOf _ _ hty)
  | function params inner =>
    exact applyDeclarator_acts hP hvisit inner _ _ (hP.functionReturning _ hty)
  | trailing params result inner =>
    unfold applyDeclarator
    split
    · refine .bind Ready.stable (lowerWritten_acts hP hvisit result) fun written hwritten => ?_
      exact applyDeclarator_acts hP hvisit inner _ _ (hP.functionReturning _ hwritten)
    · exact applyDeclarator_acts hP hvisit inner _ _ (hP.functionReturning _ hty)
  | conversion name target =>
    exact .bind Ready.stable (lowerWritten_acts hP hvisit target) fun _ hwritten =>
      .pure hwritten

theorem lowerWritten_acts (hP : TypeClosed P) (hvisit : VisitActs P visit)
    (written : WrittenType) :
    Acts P scope (Ready P scope) (lowerWritten visit scope written)
      fun declared => P declared.ty := by
  cases written with
  | mk specifier quals declarator =>
    refine .bind Ready.stable (lowerSpecifier_acts hP hvisit specifier) fun base hbase => ?_
    exact applyDeclarator_acts hP hvisit declarator _ _ (hP.withQuals _ _ hbase)

end

variable (hP : TypeClosed P) (hvisit : VisitActs P visit)

include hP hvisit

theorem baseType_acts (owner : Node) :
    Acts P scope (Ready P scope) (baseType visit scope owner) P :=
  .bind Ready.stable (lowerSpecifier_acts hP hvisit _) fun _ hbase => .pure (hP.withQuals _ _ hbase)

theorem applyNode_acts (declarator : Option Node) {base : QualType} (hbase : P base) :
    Acts P scope (Ready P scope) (applyNode visit scope declarator base)
      fun declared => P declared.ty :=
  applyDeclarator_acts hP hvisit _ _ _ hbase

theorem lowerDeclaration_acts (owner : Node) :
    Acts P scope (Ready P scope) (lowerDeclaration visit scope owner)
      fun declared => P declared.ty :=
  .bind Ready.stable (baseType_acts hP hvisit owner) fun _ hbase => applyNode_acts hP hvisit _ hbase

theorem lowerDescriptor_acts (node : Node) :
    Acts P scope (Ready P scope) (lowerDescriptor visit scope node) P :=
  .bind Ready.stable (lowerWritten_acts hP hvisit _) fun _ hwritten => .pure hwritten

theorem castDestination_acts (written : Node) :
    Acts P scope (Ready P scope) (castDestination visit scope written)
      fun result => ∀ ty ∈ result, P ty := by
  unfold castDestination
  split
  · refine .bind Ready.stable (lowerDescriptor_acts hP hvisit written) fun ty hty => ?_
    exact .pure (by simpa using hty)
  · exact .result fun s hs => by simpa using resolve_of_ready hP hs _
  · exact .result fun s hs => by simpa using resolve_of_ready hP hs _
  · exact .pure (by simp)

theorem templateArgument_acts (node : Node) :
    Acts P scope (Ready P scope) (templateArgument visit scope node)
      fun result => ∀ ty ∈ result, P ty := by
  unfold templateArgument
  split
  · refine .bind Ready.stable (lowerDescriptor_acts hP hvisit node) fun ty hty => ?_
    exact .pure (by simpa using hty)
  · refine .result fun s hs => ?_
    split
    · simpa using resolve_of_ready hP hs _
    · simp
  · exact .pure (by simp)

theorem parameterType_acts (node : Node) :
    Acts P scope (Ready P scope) (parameterType visit scope node) P :=
  .bind Ready.stable (lowerDeclaration_acts hP hvisit node) fun _ hdeclared =>
    .pure (hP.decay _ hdeclared)

theorem parameterTypes_acts (list : Node) :
    Acts P scope (Ready P scope) (parameterTypes visit scope list)
      fun types => ∀ ty, some ty ∈ types → P ty := by
  refine .bind Ready.stable
    (.mapM Ready.stable _ fun node _ => parameterType_acts hP hvisit node) fun types htypes => ?_
  apply Acts.pure
  intro ty hty
  obtain ⟨given, hgiven, heq⟩ := List.mem_map.mp hty
  cases heq
  exact htypes ty (List.mem_filter.mp hgiven).1

end WidthCheck.Lowering
