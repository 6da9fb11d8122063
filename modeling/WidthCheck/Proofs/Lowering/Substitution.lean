import WidthCheck.Lowering.Walk
import WidthCheck.Proofs.CType.Substitution

/-!
# Instantiating a written type

A written type is lowered again for every instantiation of the template it stands in, with the
arguments in place of the parameters. The outcome is that of the template's pattern with the
arguments substituted, unless a class or an enumeration is defined in the type.
-/

namespace WidthCheck

/-- Whether nothing is defined in a specifier. -/
def Specifier.isPlain : Specifier → Bool
  | .definition .. => false
  | _ => true

mutual

/-- Whether nothing is defined in a declarator, in the types after arrows included. -/
def Declarator.isPlain : Declarator → Bool
  | .anonymous | .named _ => true
  | .pointer _ inner | .reference _ inner | .array _ inner | .function _ inner => inner.isPlain
  | .trailing _ result inner => result.isPlain && inner.isPlain
  | .conversion _ target => target.isPlain

/-- Whether nothing is defined in a written type. -/
def WrittenType.isPlain : WrittenType → Bool
  | .mk specifier _ declarator => specifier.isPlain && declarator.isPlain

end

namespace Lowering

/-- The scope of a template's pattern. -/
def Scope.ofPattern (scope : Scope) (params : List String) : Scope :=
  { scope with bindings := [], typeParams := [params] }

/-- The scope of an instantiation. -/
def Scope.ofInstance (scope : Scope) (args : Bindings) : Scope :=
  { scope with bindings := args, typeParams := [] }

@[simp] theorem Scope.ofPattern_source (scope : Scope) (params : List String) :
    (scope.ofPattern params).source = scope.source := rfl

@[simp] theorem Scope.ofInstance_source (scope : Scope) (args : Bindings) :
    (scope.ofInstance args).source = scope.source := rfl

/-- Arguments for the type parameters of a template: one for each, and no placeholder. -/
structure Bindings.Instantiates (args : Bindings) (params : List String) : Prop where
  isSome_lookup_iff : ∀ name, (args.lookup name).isSome ↔ name ∈ params
  isAuto_lookup : ∀ name arg, args.lookup name = some arg → arg.isAuto = false

/-- What is declared when arguments are substituted. -/
def Declared.substitute (args : String → Option QualType) (declared : Declared) : Declared :=
  { declared with ty := declared.ty.substitute args }

section

variable (visit : Scope → Node → Lowering Unit) (scope : Scope) {params : List String}
  {args : Bindings}

theorem Bindings.Instantiates.substitute_resolve (h : args.Instantiates params) (name : String) :
    ((scope.ofPattern params).resolve name).substitute (args.lookup ·) =
      (scope.ofInstance args).resolve name := by
  by_cases hname : name ∈ params
  · obtain ⟨arg, harg⟩ := Option.isSome_iff_exists.mp ((h.isSome_lookup_iff name).mpr hname)
    have hpattern : (scope.ofPattern params).resolve name = .templateParam name := by
      simp [Scope.resolve, Scope.ofPattern, hname]
    have hinstance : (scope.ofInstance args).resolve name = arg := by
      simp [Scope.resolve, Scope.ofInstance, harg]
    rw [hpattern, hinstance, QualType.templateParam, QualType.substitute, harg]
    exact arg.withQuals_none
  · have hnone : args.lookup name = none := by
      rw [← Option.not_isSome_iff_eq_none, h.isSome_lookup_iff]
      exact hname
    have hpattern : (scope.ofPattern params).resolve name = .named name := by
      simp [Scope.resolve, Scope.ofPattern, hname]
    have hinstance : (scope.ofInstance args).resolve name = .named name := by
      simp [Scope.resolve, Scope.ofInstance, hnone]
    rw [hpattern, hinstance]
    rfl

-- Neither step looks at the state, and the second gives what the first gives with the arguments
-- substituted. The same shape is kept for declarators and written types.
theorem lowerSpecifier_substitute (h : args.Instantiates params) {specifier : Specifier}
    (hplain : specifier.isPlain = true) :
    ∃ ty, lowerSpecifier visit (scope.ofPattern params) specifier = pure ty ∧
      lowerSpecifier visit (scope.ofInstance args) specifier =
        pure (ty.substitute (args.lookup ·)) := by
  cases specifier with
  | absent | placeholder text | verbatim text => exact ⟨_, rfl, rfl⟩
  | name text =>
    refine ⟨_, rfl, ?_⟩
    rw [h.substitute_resolve]
    rfl
  | keywords words quals =>
    refine ⟨_, rfl, ?_⟩
    rw [QualType.substitute_withQuals, lowerSpecifier]
    cases Builtin.canonical? words with
    | some spelling => rfl
    | none => rw [h.substitute_resolve]
  | definition node name => cases hplain

mutual

theorem applyDeclarator_substitute (h : args.Instantiates params) (declarator : Declarator)
    (hplain : declarator.isPlain = true) (ty : QualType) (list : Option Node) :
    ∃ declared, applyDeclarator visit (scope.ofPattern params) declarator ty list = pure declared ∧
      applyDeclarator visit (scope.ofInstance args) declarator (ty.substitute (args.lookup ·))
        list = pure (declared.substitute (args.lookup ·)) := by
  cases declarator with
  | anonymous | named node => exact ⟨_, rfl, rfl⟩
  | pointer quals inner =>
    have hstep : (ty.substitute (args.lookup ·)).pointerTo.withQuals quals =
        (ty.pointerTo.withQuals quals).substitute (args.lookup ·) := by
      rw [QualType.substitute_withQuals, QualType.substitute_pointerTo]
    rw [applyDeclarator, applyDeclarator, hstep]
    exact applyDeclarator_substitute h inner hplain _ _
  | reference rvalue inner =>
    have hstep : (if rvalue then (ty.substitute (args.lookup ·)).rvalueRefTo
          else (ty.substitute (args.lookup ·)).lvalueRefTo) =
        (if rvalue then ty.rvalueRefTo else ty.lvalueRefTo).substitute (args.lookup ·) := by
      cases rvalue with
      | true => exact (ty.substitute_rvalueRefTo _).symm
      | false => exact (ty.substitute_lvalueRefTo _).symm
    rw [applyDeclarator, applyDeclarator, hstep]
    exact applyDeclarator_substitute h inner hplain _ _
  | array bound inner =>
    rw [applyDeclarator, applyDeclarator, ← QualType.substitute_arrayOf]
    exact applyDeclarator_substitute h inner hplain _ _
  | function params inner =>
    rw [applyDeclarator, applyDeclarator, ← QualType.substitute_functionReturning]
    exact applyDeclarator_substitute h inner hplain _ _
  | trailing params result inner =>
    obtain ⟨hresult, hinner⟩ := Bool.and_eq_true_iff.mp hplain
    rw [applyDeclarator, applyDeclarator, QualType.isAuto_substitute h.isAuto_lookup]
    by_cases hauto : ty.isAuto = true
    · obtain ⟨written, hpattern, hinstance⟩ := lowerWritten_substitute h result hresult
      rw [if_pos hauto, if_pos hauto, hpattern, hinstance, pure_bind, pure_bind,
        Declared.substitute, ← QualType.substitute_functionReturning]
      exact applyDeclarator_substitute h inner hinner _ _
    · rw [if_neg hauto, if_neg hauto, ← QualType.substitute_functionReturning]
      exact applyDeclarator_substitute h inner hinner _ _
  | conversion name target =>
    obtain ⟨written, hpattern, hinstance⟩ := lowerWritten_substitute h target hplain
    rw [applyDeclarator, applyDeclarator, hpattern, hinstance]
    exact ⟨_, rfl, rfl⟩

theorem lowerWritten_substitute (h : args.Instantiates params) (written : WrittenType)
    (hplain : written.isPlain = true) :
    ∃ declared, lowerWritten visit (scope.ofPattern params) written = pure declared ∧
      lowerWritten visit (scope.ofInstance args) written =
        pure (declared.substitute (args.lookup ·)) := by
  cases written with
  | mk specifier quals declarator =>
    obtain ⟨hspecifier, hdeclarator⟩ := Bool.and_eq_true_iff.mp hplain
    obtain ⟨base, hpattern, hinstance⟩ := lowerSpecifier_substitute visit scope h hspecifier
    rw [lowerWritten, lowerWritten, hpattern, hinstance, pure_bind, pure_bind,
      ← QualType.substitute_withQuals]
    exact applyDeclarator_substitute h declarator hdeclarator _ _

end

theorem baseType_substitute (h : args.Instantiates params) {owner : Node}
    (hplain : (scope.source.specifierOf owner).isPlain = true) :
    ∃ ty, baseType visit (scope.ofPattern params) owner = pure ty ∧
      baseType visit (scope.ofInstance args) owner = pure (ty.substitute (args.lookup ·)) := by
  obtain ⟨base, hpattern, hinstance⟩ := lowerSpecifier_substitute visit scope h hplain
  refine ⟨base.withQuals (scope.source.qualifiersOf owner), ?_, ?_⟩
  · rw [baseType, Scope.ofPattern_source, hpattern, pure_bind]
  · rw [baseType, Scope.ofInstance_source, hinstance, pure_bind, QualType.substitute_withQuals]

/-- Lowering a written type with arguments bound is lowering its pattern and substituting them. The
declared name and the parameters stay the same. -/
theorem instantiation_eq_substitution (h : args.Instantiates params) :
    (∀ (owner : Node) (declarator : Option Node),
      (scope.source.specifierOf owner).isPlain = true →
      ((declarator.map scope.source.declarator).getD .anonymous).isPlain = true →
      ∃ declared,
        baseType visit (scope.ofPattern params) owner >>=
            applyNode visit (scope.ofPattern params) declarator = pure declared ∧
          baseType visit (scope.ofInstance args) owner >>=
            applyNode visit (scope.ofInstance args) declarator =
              pure (declared.substitute (args.lookup ·))) ∧
    (∀ node : Node, (scope.source.typeDescriptor node).isPlain = true →
      ∃ ty, lowerDescriptor visit (scope.ofPattern params) node = pure ty ∧
        lowerDescriptor visit (scope.ofInstance args) node =
          pure (ty.substitute (args.lookup ·))) := by
  refine ⟨fun owner declarator hspecifier hdeclarator => ?_, fun node hplain => ?_⟩
  · obtain ⟨base, hpattern, hinstance⟩ := baseType_substitute visit scope h hspecifier
    rw [hpattern, hinstance, pure_bind, pure_bind]
    exact applyDeclarator_substitute visit scope h _ hdeclarator base none
  · obtain ⟨written, hpattern, hinstance⟩ := lowerWritten_substitute visit scope h _ hplain
    refine ⟨written.ty, ?_, ?_⟩
    · rw [lowerDescriptor, Scope.ofPattern_source, hpattern, pure_bind]
    · rw [lowerDescriptor, Scope.ofInstance_source, hinstance, pure_bind, Declared.substitute]

end

/-- The declaration `T &&x`. -/
def forwardingParameter : Node :=
  .mk { kind := .parameterDeclaration, span := ⟨0, 5⟩ } [
    .mk { kind := .typeIdentifier, field := some .type, span := ⟨0, 1⟩ } [],
    .mk { kind := .referenceDeclarator, field := some .declarator, span := ⟨2, 5⟩ } [
      .mk { kind := .doubleAmpersand, span := ⟨2, 4⟩, isNamed := false } [],
      .mk { kind := .identifier, span := ⟨4, 5⟩ } []]]

theorem forwardingParameter_isPlain (src : Source) :
    (src.specifierOf forwardingParameter).isPlain = true ∧
      (((forwardingParameter.field? .declarator).map src.declarator).getD .anonymous).isPlain =
        true ∧
      (src.typeDescriptor forwardingParameter).isPlain = true := by
  have hfield : (src.declaratorField forwardingParameter).isPlain = true := by cbv
  refine ⟨rfl, by cbv, ?_⟩
  rw [Source.typeDescriptor]
  exact Bool.and_eq_true_iff.mpr ⟨rfl, hfield⟩

def forwardingScope : Scope := { source := .ofString "T &&x" }

/-- An argument for `T` that is a reference itself. -/
def forwardedArgument : Bindings := [("T", (QualType.builtin "long").lvalueRefTo)]

theorem forwardedArgument_instantiates : forwardedArgument.Instantiates ["T"] where
  isSome_lookup_iff name := by
    by_cases hname : name = "T"
    · subst hname
      decide
    · have hbeq : (name == "T") = false := beq_false_of_ne hname
      simp [forwardedArgument, List.lookup_cons, hbeq, hname]
  isAuto_lookup name arg harg := by
    obtain ⟨front, back, hbindings, -⟩ := List.lookup_eq_some_iff.mp harg
    have hmem : (name, arg) ∈ forwardedArgument := by simp [hbindings]
    obtain ⟨-, rfl⟩ := Prod.mk.inj (List.mem_singleton.mp hmem)
    rfl

theorem forwardingParameter_substitution :
    (∃ declared,
      baseType visit (forwardingScope.ofPattern ["T"]) forwardingParameter >>=
          applyNode visit (forwardingScope.ofPattern ["T"])
            (forwardingParameter.field? .declarator) = pure declared ∧
        baseType visit (forwardingScope.ofInstance forwardedArgument) forwardingParameter >>=
          applyNode visit (forwardingScope.ofInstance forwardedArgument)
            (forwardingParameter.field? .declarator) =
              pure (declared.substitute (forwardedArgument.lookup ·))) ∧
    ∃ ty, lowerDescriptor visit (forwardingScope.ofPattern ["T"]) forwardingParameter = pure ty ∧
      lowerDescriptor visit (forwardingScope.ofInstance forwardedArgument) forwardingParameter =
        pure (ty.substitute (forwardedArgument.lookup ·)) := by
  obtain ⟨hdeclaration, hdescriptor⟩ :=
    instantiation_eq_substitution visit forwardingScope forwardedArgument_instantiates
  obtain ⟨hspecifier, hdeclarator, hwritten⟩ := forwardingParameter_isPlain forwardingScope.source
  exact ⟨hdeclaration _ _ hspecifier hdeclarator, hdescriptor _ hwritten⟩

end Lowering

end WidthCheck
