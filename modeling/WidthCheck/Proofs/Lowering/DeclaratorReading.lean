import WidthCheck.Proofs.Lowering.OwnParameters

/-!
# Reading a declarator

A declarator is written inside out: the node next to the base comes first, the declared name last.
What it declares is the base with the layers put on in that order, whatever wraps them, and the
parameters of a declared function are those of the layer next to the name.
-/

namespace WidthCheck

/-! ## Declarators by the kind of their node -/

namespace Source

variable (src : Source) {node : Node}

theorem declaratorField_eq (node : Node) :
    src.declaratorField node =
      ((node.field? .declarator).map src.declarator).getD .anonymous := by
  rw [declaratorField]
  split
  · rename_i inner hinner
    rw [hinner, Option.map_some, Option.getD_some]
  · rename_i hnone
    rw [hnone, Option.map_none, Option.getD_none]

theorem declarator_of_initDeclarator (hkind : node.kind = .initDeclarator) :
    src.declarator node =
      ((node.field? .declarator).map src.declarator).getD .anonymous := by
  rw [declarator]
  simp only [hkind]
  exact src.declaratorField_eq node

theorem declarator_of_wrapper
    (hkind : node.kind = .parenthesizedDeclarator ∨ node.kind = .attributedDeclarator) :
    src.declarator node = (node.named.head?.map src.declarator).getD .anonymous := by
  rw [declarator]
  rcases hkind with hkind | hkind
  all_goals
    simp only [hkind]
    split
    · rename_i inner hinner
      rw [hinner, Option.map_some, Option.getD_some]
    · rename_i hnone
      rw [hnone, Option.map_none, Option.getD_none]

theorem declarator_of_pointer
    (hkind : node.kind = .pointerDeclarator ∨ node.kind = .abstractPointerDeclarator) :
    src.declarator node = .pointer (src.qualifiersOf node)
      (((node.field? .declarator).map src.declarator).getD .anonymous) := by
  rw [declarator]
  rcases hkind with hkind | hkind
  all_goals
    simp only [hkind]
    rw [src.declaratorField_eq node]

theorem declarator_of_reference
    (hkind : node.kind = .referenceDeclarator ∨ node.kind = .abstractReferenceDeclarator) :
    src.declarator node = .reference (node.ofKind? .doubleAmpersand).isSome
      ((node.named.getLast?.map src.declarator).getD .anonymous) := by
  rw [declarator]
  rcases hkind with hkind | hkind
  all_goals
    simp only [hkind]
    split
    · rename_i inner hinner
      rw [hinner, Option.map_some, Option.getD_some]
    · rename_i hnone
      rw [hnone, Option.map_none, Option.getD_none]

theorem declarator_of_array
    (hkind : node.kind = .arrayDeclarator ∨ node.kind = .abstractArrayDeclarator) :
    src.declarator node = .array ((node.field? .size).map src.collapsed)
      (((node.field? .declarator).map src.declarator).getD .anonymous) := by
  rw [declarator]
  rcases hkind with hkind | hkind
  all_goals
    simp only [hkind]
    rw [src.declaratorField_eq node]

theorem declarator_of_function
    (hkind : node.kind = .functionDeclarator ∨ node.kind = .abstractFunctionDeclarator) :
    src.declarator node =
      match node.ofKind? .trailingReturnType with
      | some result => .trailing (node.field? .parameters) (src.trailingType result)
          (((node.field? .declarator).map src.declarator).getD .anonymous)
      | none => .function (node.field? .parameters)
          (((node.field? .declarator).map src.declarator).getD .anonymous) := by
  rw [declarator]
  rcases hkind with hkind | hkind
  all_goals
    simp only [hkind]
    rw [src.declaratorField_eq node]
    split
    · rename_i result hresult
      rw [hresult]
    · rename_i hnone
      rw [hnone]

theorem declarator_of_identifier (hkind : node.kind = .identifier) :
    src.declarator node = .named node := by
  rw [declarator]
  simp only [hkind]

end Source

/-! ## Layers -/

/-- A layer of a declarator as it is written. A function comes with its list of parameters. -/
inductive DeclaratorLayer where
  | pointer (quals : Quals)
  | reference (rvalue : Bool)
  | array (bound : Option String)
  | function (params : Option Node)

namespace DeclaratorLayer

/-- The type that a layer makes of the one it is put on. A reference to a reference is one
reference, and an rvalue reference only if both are. -/
def wrap : DeclaratorLayer → QualType → QualType
  | pointer quals, ty => .layer .pointer ty quals
  | reference false, ty => .layer .lvalueRef ty.referee .none
  | reference true, .layer .lvalueRef ty quals => .layer .lvalueRef ty quals
  | reference true, .layer .rvalueRef ty quals => .layer .rvalueRef ty quals
  | reference true, ty => .layer .rvalueRef ty .none
  | array bound, ty => .layer (.array bound) ty .none
  | function _, ty => .layer .function ty .none

/-- The parameters that a layer writes; only functions have some. -/
def params? : DeclaratorLayer → Option Node
  | function params => params
  | _ => none

theorem reference_true_wrap (ty : QualType) : (reference true).wrap ty = ty.rvalueRefTo := by
  unfold QualType.rvalueRefTo
  cases ty with
  | base kind name quals => rfl
  | layer layer inner quals => cases layer <;> rfl

theorem pointer_wrap (quals : Quals) (ty : QualType) :
    (pointer quals).wrap ty = ty.pointerTo.withQuals quals := by
  change QualType.layer .pointer ty quals = .layer .pointer ty (Quals.none.merge quals)
  rw [Quals.none_merge]

end DeclaratorLayer

/-- The type that layers make of a base, the first of them put on first. -/
def readLayers (layers : List DeclaratorLayer) (base : QualType) : QualType :=
  layers.foldl (fun ty layer => layer.wrap ty) base

/-- The parameters of what is declared: those of the layer next to the name. -/
def ownParams (layers : List DeclaratorLayer) : Option Node :=
  layers.getLast?.bind DeclaratorLayer.params?

/-- The nodes that write layers around a name, from the outermost in. Parentheses, attributes and
initializers may stand around any of them. -/
inductive Spells (src : Source) : Node → List DeclaratorLayer → Node → Prop where
  | name {node : Node} (hkind : node.kind = .identifier) : Spells src node [] node
  | wrapper {node inner name : Node} {rest : List Node} {layers : List DeclaratorLayer}
      (hkind : node.kind = .parenthesizedDeclarator ∨ node.kind = .attributedDeclarator)
      (hinner : node.named = inner :: rest) (h : Spells src inner layers name) :
      Spells src node layers name
  | initializer {node inner name : Node} {layers : List DeclaratorLayer}
      (hkind : node.kind = .initDeclarator) (hinner : node.field? .declarator = some inner)
      (h : Spells src inner layers name) : Spells src node layers name
  | pointer {node inner name : Node} {layers : List DeclaratorLayer}
      (hkind : node.kind = .pointerDeclarator) (hinner : node.field? .declarator = some inner)
      (h : Spells src inner layers name) :
      Spells src node (.pointer (src.qualifiersOf node) :: layers) name
  | reference {node inner name : Node} {layers : List DeclaratorLayer} (rvalue : Bool)
      (hkind : node.kind = .referenceDeclarator)
      (hsign : rvalue = true ↔ ∃ sign ∈ node.children, sign.kind = .doubleAmpersand)
      (hinner : node.named.getLast? = some inner) (h : Spells src inner layers name) :
      Spells src node (.reference rvalue :: layers) name
  | array {node inner name : Node} {layers : List DeclaratorLayer}
      (hkind : node.kind = .arrayDeclarator) (hinner : node.field? .declarator = some inner)
      (h : Spells src inner layers name) :
      Spells src node (.array ((node.field? .size).map src.collapsed) :: layers) name
  | function {node inner name : Node} {layers : List DeclaratorLayer}
      (hkind : node.kind = .functionDeclarator)
      (htrailing : ∀ child ∈ node.children, child.kind ≠ .trailingReturnType)
      (hinner : node.field? .declarator = some inner) (h : Spells src inner layers name) :
      Spells src node (.function (node.field? .parameters) :: layers) name

namespace Lowering

/-- What layers around a name declare on a base. -/
def Declared.ofLayers (layers : List DeclaratorLayer) (name : Node) (base : QualType) : Declared :=
  { name := some name, ty := readLayers layers base, params := ownParams layers }

variable {scope : Scope} {node name : Node} {layers : List DeclaratorLayer}

theorem isSome_ofKind?_iff {kind : Kind} :
    (node.ofKind? kind).isSome = true ↔ ∃ child ∈ node.children, child.kind = kind := by
  simp [Node.ofKind?, List.find?_isSome]

-- Each layer passes on its own parameters or none, so in the end those of the last one are left.
theorem applyDeclarator_of_spells (visit : Scope → Node → Lowering Unit)
    (h : Spells scope.source node layers name) (base : QualType) (given : Option Node) :
    applyDeclarator visit scope (scope.source.declarator node) base given =
      pure { name := some name, ty := readLayers layers base
             params := layers.foldl (fun _ layer => layer.params?) given } := by
  induction h generalizing base given with
  | name hkind =>
    rw [scope.source.declarator_of_identifier hkind]
    rfl
  | wrapper hkind hinner _ ih =>
    rw [scope.source.declarator_of_wrapper hkind, hinner]
    exact ih base given
  | initializer hkind hinner _ ih =>
    rw [scope.source.declarator_of_initDeclarator hkind, hinner]
    exact ih base given
  | pointer hkind hinner _ ih =>
    rw [scope.source.declarator_of_pointer (.inl hkind), hinner, applyDeclarator,
      ← DeclaratorLayer.pointer_wrap]
    exact ih _ none
  | reference rvalue hkind hsign hinner _ ih =>
    have hisSome : (Node.ofKind? _ .doubleAmpersand).isSome = rvalue :=
      Bool.eq_iff_iff.mpr (isSome_ofKind?_iff.trans hsign.symm)
    rw [scope.source.declarator_of_reference (.inl hkind), hinner, hisSome, applyDeclarator]
    cases rvalue with
    | true =>
      rw [if_pos rfl, ← DeclaratorLayer.reference_true_wrap]
      exact ih _ none
    | false => exact ih _ none
  | array hkind hinner _ ih =>
    rw [scope.source.declarator_of_array (.inl hkind), hinner]
    exact ih _ none
  | function hkind htrailing hinner _ ih =>
    have hnone : Node.ofKind? _ .trailingReturnType = none :=
      List.find?_eq_none.mpr fun child hchild => by simpa using htrailing child hchild
    rw [scope.source.declarator_of_function (.inl hkind), hnone, hinner]
    exact ih _ _

theorem foldl_params?_eq (layers : List DeclaratorLayer) :
    layers.foldl (fun _ layer => layer.params?) none = ownParams layers := by
  unfold ownParams
  rcases List.eq_nil_or_concat layers with rfl | ⟨front, last, rfl⟩
  · rfl
  · rw [List.concat_eq_append, List.foldl_append, List.getLast?_concat]
    rfl

theorem applyNode_of_spells (visit : Scope → Node → Lowering Unit)
    (h : Spells scope.source node layers name) (base : QualType) :
    applyNode visit scope (some node) base = pure (Declared.ofLayers layers name base) := by
  rw [Declared.ofLayers, ← foldl_params?_eq]
  exact applyDeclarator_of_spells visit h base none

theorem readLayers_append_function (front : List DeclaratorLayer) (params : Option Node)
    (base : QualType) :
    readLayers (front ++ [.function params]) base =
      .layer .function (readLayers front base) .none := by
  rw [readLayers, List.foldl_append]
  rfl

theorem ownParams_append_function (front : List DeclaratorLayer) (params : Option Node) :
    ownParams (front ++ [.function params]) = params := by
  rw [ownParams, List.getLast?_concat]
  rfl

/-- Layers around a name declare what C++ reads in them: the name, and the base with the layers put
on, the outermost node first. If the layer next to the name is a function, then a function is
visited that returns what the other layers make of the base. The function is recorded, and after it
the parameters of its own list; nothing else is, but for what is visited inside the list and the
body. -/
theorem declarator_reading (below : Walker) (scope : Scope) {node name : Node}
    {layers : List DeclaratorLayer} (h : Spells scope.source node layers name) :
    (∀ base, applyNode below.visit scope (some node) base =
      pure { name := some name, ty := readLayers layers base, params := ownParams layers }) ∧
    ∀ front params, layers = front ++ [.function params] →
      (∀ owner kind base,
        applyNode below.visit scope (some node) base >>= visitDeclared below scope owner kind =
          visitFunction below scope owner
            { name := some name, ty := readLayers layers base, params } (readLayers front base)) ∧
      (∀ owner, owner.field? .declarator = some node →
        visitFunctionDefinition below scope owner =
          baseType below.visit scope owner >>= fun base => visitFunction below scope owner
            { name := some name, ty := readLayers layers base, params }
            (readLayers front base)) ∧
      ∀ owner base s,
        (∀ levels, RecordsFunction scope List.Sublist (readLayers front base) params s
          (visitFunction (walker levels) scope owner
            { name := some name, ty := readLayers layers base, params }
            (readLayers front base) s).2) ∧
        (VisitRecords (· = ·) below.visit →
          RecordsFunction scope (· = ·) (readLayers front base) params s
            (visitFunction below scope owner
              { name := some name, ty := readLayers layers base, params }
              (readLayers front base) s).2) := by
  have happly := applyNode_of_spells below.visit h
  refine ⟨happly, ?_⟩
  rintro front params rfl
  have hdeclared : ∀ base, Declared.ofLayers (front ++ [.function params]) name base =
      { name := some name, ty := .layer .function (readLayers front base) .none, params } := by
    intro base
    rw [Declared.ofLayers, readLayers_append_function, ownParams_append_function]
  simp only [readLayers_append_function]
  refine ⟨fun owner kind base => ?_, fun owner howner => ?_, fun owner base s =>
    ⟨fun levels => ?_, fun hquiet => ?_⟩⟩
  · rw [happly base, pure_bind, hdeclared]
    rfl
  · unfold visitFunctionDefinition lowerDeclaration
    rw [howner, bind_assoc]
    refine bind_congr fun base => ?_
    rw [happly base, pure_bind, hdeclared]
  · exact visitFunction_records .sublist (walker_visitRecords levels) owner name _ params _ s
  · exact visitFunction_records .eq hquiet owner name _ params _ s

/-! ## A function that returns a pointer to a function -/

def pickName : Node := .mk { kind := .identifier, field := some .declarator, span := ⟨7, 11⟩ } []

def pickParamName : Node :=
  .mk { kind := .identifier, field := some .declarator, span := ⟨16, 17⟩ } []

/-- The parameter `int n`. -/
def pickParam : Node :=
  .mk { kind := .parameterDeclaration, span := ⟨12, 17⟩ } [
    .mk { kind := .primitiveType, field := some .type, span := ⟨12, 15⟩ } [], pickParamName]

def pickParams : Node :=
  .mk { kind := .other "parameter_list", field := some .parameters, span := ⟨11, 18⟩ } [pickParam]

/-- The parameters `(long)` of the function that is pointed to. -/
def pickedParams : Node :=
  .mk { kind := .other "parameter_list", field := some .parameters, span := ⟨19, 25⟩ } [
    .mk { kind := .parameterDeclaration, span := ⟨20, 24⟩ } [
      .mk { kind := .sizedTypeSpecifier, field := some .type, span := ⟨20, 24⟩ } []]]

/-- The declarator of `long (*pick(int n))(long)`. -/
def pickDeclarator : Node :=
  .mk { kind := .functionDeclarator, field := some .declarator, span := ⟨5, 25⟩ } [
    .mk { kind := .parenthesizedDeclarator, field := some .declarator, span := ⟨5, 19⟩ } [
      .mk { kind := .other "(", span := ⟨5, 6⟩, isNamed := false } [],
      .mk { kind := .pointerDeclarator, span := ⟨6, 18⟩ } [
        .mk { kind := .other "*", span := ⟨6, 7⟩, isNamed := false } [],
        .mk { kind := .functionDeclarator, field := some .declarator, span := ⟨7, 18⟩ }
          [pickName, pickParams]],
      .mk { kind := .other ")", span := ⟨18, 19⟩, isNamed := false } []],
    pickedParams]

theorem pickDeclarator_spells (src : Source) :
    Spells src pickDeclarator
      [.function (some pickedParams), .pointer .none, .function (some pickParams)] pickName :=
  .function rfl (by decide) rfl <| .wrapper (.inl rfl) rfl <| .pointer rfl rfl <|
    .function rfl (by decide) rfl <| .name rfl

def pickScope : Scope := { source := .ofString "long (*pick(int n))(long)" }

theorem declared_pickParam :
    (pickScope.inside {}).declared pickParam =
      { name := some pickParamName, ty := .builtin "int", params := none } := by
  have hname : pickParam.field? .declarator = some pickParamName := rfl
  have hspells : Spells (pickScope.inside {}).source pickParamName [] pickParamName := .name rfl
  unfold Scope.declared lowerDeclaration
  rw [hname]
  simp only [applyNode_of_spells _ hspells]
  rfl

theorem pickDeclarator_reading :
    applyNode visit pickScope (some pickDeclarator) (.builtin "long") = pure {
      name := some pickName
      ty := (QualType.builtin "long").functionReturning.pointerTo.functionReturning
      params := some pickParams } ∧
    applyNode visit pickScope (some pickDeclarator) (.builtin "long") >>=
        visitDeclared (walker nestingLimit) pickScope pickDeclarator .var =
      visitFunction (walker nestingLimit) pickScope pickDeclarator
        { name := some pickName
          ty := (QualType.builtin "long").functionReturning.pointerTo.functionReturning
          params := some pickParams }
        (QualType.builtin "long").functionReturning.pointerTo ∧
    RecordsFunction pickScope List.Sublist (QualType.builtin "long").functionReturning.pointerTo
      (some pickParams) {}
      (visitFunction (walker nestingLimit) pickScope pickDeclarator
        { name := some pickName
          ty := (QualType.builtin "long").functionReturning.pointerTo.functionReturning
          params := some pickParams }
        (QualType.builtin "long").functionReturning.pointerTo {}).2 ∧
    ((pickScope.inside {}).parameters (some pickParams)).map (fun decl => (decl.name, decl.ty)) =
      [("n", .builtin "int")] := by
  obtain ⟨hreading, hfunction⟩ := declarator_reading (walker nestingLimit) pickScope
    (pickDeclarator_spells pickScope.source)
  obtain ⟨hvisited, -, hrecords⟩ :=
    hfunction [.function (some pickedParams), .pointer .none] (some pickParams) rfl
  refine ⟨hreading (.builtin "long"), hvisited pickDeclarator .var (.builtin "long"),
    (hrecords pickDeclarator (.builtin "long") {}).1 nestingLimit, ?_⟩
  have hparam : (pickScope.inside {}).parameter? pickParam = some {
      name := "n"
      kind := .parameter
      ty := .builtin "int"
      location := pickScope.source.location pickParamName
      context := 1 } := by
    unfold Scope.parameter?
    rw [declared_pickParam]
    rfl
  change ([pickParam].filterMap (pickScope.inside {}).parameter?).map _ = _
  rw [List.filterMap_cons_some hparam]
  rfl

end Lowering

end WidthCheck
