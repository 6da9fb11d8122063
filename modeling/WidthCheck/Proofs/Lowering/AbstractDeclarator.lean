import WidthCheck.Proofs.Lowering.DeclaratorReading

/-!
# Declarators without a name

A cast, an alias, an unnamed parameter or a template argument writes its type with an abstract
declarator. Its layers are read as those of a declarator with a name, up to the first parentheses:
these end the reading as a name would. So `long (*)(int)` is read as `long (int)`, and only without
parentheses does an abstract declarator denote the type that the same layers give a name.
-/

namespace WidthCheck

/-! ## Chains of layers -/

/-- The two families of nodes that write layers: those around a name and the abstract ones. -/
inductive DeclaratorFamily where
  | named
  | abstract

namespace DeclaratorFamily

def pointer : DeclaratorFamily → Kind
  | named => .pointerDeclarator
  | abstract => .abstractPointerDeclarator

def reference : DeclaratorFamily → Kind
  | named => .referenceDeclarator
  | abstract => .abstractReferenceDeclarator

def array : DeclaratorFamily → Kind
  | named => .arrayDeclarator
  | abstract => .abstractArrayDeclarator

def function : DeclaratorFamily → Kind
  | named => .functionDeclarator
  | abstract => .abstractFunctionDeclarator

def parentheses : DeclaratorFamily → Kind
  | named => .parenthesizedDeclarator
  | abstract => .abstractParenthesizedDeclarator

-- What is said of a node of one kind or the other holds in each family.
theorem kind_or {family : DeclaratorFamily} {node : Node} {kindOf : DeclaratorFamily → Kind}
    (hkind : node.kind = kindOf family) :
    node.kind = kindOf .named ∨ node.kind = kindOf .abstract := by
  cases family with
  | named => exact .inl hkind
  | abstract => exact .inr hkind

end DeclaratorFamily

/-- A node of a family writes a layer, with this declarator below it. A function may have its
return type written after the parameters. -/
inductive WritesLayer (src : Source) (family : DeclaratorFamily) (node : Node) :
    DeclaratorLayer → Option Node → Prop where
  | pointer (hkind : node.kind = family.pointer) :
      WritesLayer src family node (.pointer (src.qualifiersOf node)) (node.field? .declarator)
  | reference (rvalue : Bool) (hkind : node.kind = family.reference)
      (hsign : rvalue = true ↔ ∃ sign ∈ node.children, sign.kind = .doubleAmpersand) :
      WritesLayer src family node (.reference rvalue) node.named.getLast?
  | array (hkind : node.kind = family.array) :
      WritesLayer src family node (.array ((node.field? .size).map src.collapsed))
        (node.field? .declarator)
  | function (hkind : node.kind = family.function) :
      WritesLayer src family node (.function (node.field? .parameters)) (node.field? .declarator)

/-- The nodes that write layers around a name, from the outermost in, with parentheses around any
of them. -/
inductive SpellsNamed (src : Source) : Node → List DeclaratorLayer → Node → Prop where
  | name {node : Node} (hkind : node.kind = .identifier) : SpellsNamed src node [] node
  | parentheses {node inner name : Node} {rest : List Node} {layers : List DeclaratorLayer}
      (hkind : node.kind = DeclaratorFamily.named.parentheses) (hinner : node.named = inner :: rest)
      (h : SpellsNamed src inner layers name) : SpellsNamed src node layers name
  | layer {node inner name : Node} {layer : DeclaratorLayer} {layers : List DeclaratorLayer}
      (hlayer : WritesLayer src .named node layer (some inner))
      (h : SpellsNamed src inner layers name) : SpellsNamed src node (layer :: layers) name

/-- The nodes that write layers around nothing: first those in `outer`, then the parentheses
`opening`, if there are any, and in them the layers in `inside`. -/
inductive SpellsAbstract (src : Source) : Option Node → List DeclaratorLayer → Option Node →
    List DeclaratorLayer → Prop where
  | nothing : SpellsAbstract src none [] none []
  | parentheses {node inner : Node} {rest : List Node} {outer inside : List DeclaratorLayer}
      {opening : Option Node} (hkind : node.kind = DeclaratorFamily.abstract.parentheses)
      (hinner : node.named = inner :: rest)
      (h : SpellsAbstract src (some inner) outer opening inside) :
      SpellsAbstract src (some node) [] (some node) (outer ++ inside)
  | layer {node : Node} {next opening : Option Node} {layer : DeclaratorLayer}
      {outer inside : List DeclaratorLayer} (hlayer : WritesLayer src .abstract node layer next)
      (h : SpellsAbstract src next outer opening inside) :
      SpellsAbstract src (some node) (layer :: outer) opening inside

theorem SpellsAbstract.inside_eq_nil {src : Source} {node : Option Node}
    {outer inside : List DeclaratorLayer} (h : SpellsAbstract src node outer none inside) :
    inside = [] := by
  generalize hopening : (none : Option Node) = opening at h
  induction h with
  | nothing => rfl
  | parentheses => cases hopening
  | layer _ _ ih => exact ih hopening

/-! ## Types without parameters -/

/-- The layer without the parameters of a function, which do not go into its type. -/
def DeclaratorLayer.bare : DeclaratorLayer → DeclaratorLayer
  | .function _ => .function none
  | layer => layer

theorem DeclaratorLayer.bare_wrap (layer : DeclaratorLayer) (ty : QualType) :
    layer.bare.wrap ty = layer.wrap ty := by
  cases layer <;> rfl

theorem readLayers_map_bare (layers : List DeclaratorLayer) (base : QualType) :
    readLayers (layers.map DeclaratorLayer.bare) base = readLayers layers base := by
  simp only [readLayers, List.foldl_map, DeclaratorLayer.bare_wrap]

theorem DeclaratorLayer.isAuto_wrap (layer : DeclaratorLayer) (ty : QualType) :
    (layer.wrap ty).isAuto = false := by
  cases layer with
  | reference rvalue =>
    cases rvalue with
    | false => rfl
    | true =>
      rw [DeclaratorLayer.reference_true_wrap, QualType.rvalueRefTo]
      cases ty with
      | base => rfl
      | layer layer inner quals => cases layer <;> rfl
  | _ => rfl

namespace Lowering

/-! ## Reading a chain -/

section

variable (visit : Scope → Node → Lowering Unit) {scope : Scope}

-- A return type after the parameters counts only where the type before them is left open.
theorem applyDeclarator_trailing {base : QualType} (hbase : base.isAuto = false)
    (params given : Option Node) (result : WrittenType) (inner : Declarator) :
    applyDeclarator visit scope (.trailing params result inner) base given =
      applyDeclarator visit scope (.function params inner) base given := by
  rw [applyDeclarator, applyDeclarator, hbase]
  rfl

theorem applyDeclarator_of_writesLayer {family : DeclaratorFamily} {node : Node}
    {layer : DeclaratorLayer} {next : Option Node}
    (h : WritesLayer scope.source family node layer next) {base : QualType}
    (hbase : base.isAuto = false) (given : Option Node) :
    applyDeclarator visit scope (scope.source.declarator node) base given =
      applyDeclarator visit scope ((next.map scope.source.declarator).getD .anonymous)
        (layer.wrap base) layer.params? := by
  cases h with
  | pointer hkind =>
    rw [scope.source.declarator_of_pointer (DeclaratorFamily.kind_or hkind), applyDeclarator,
      ← DeclaratorLayer.pointer_wrap]
    rfl
  | reference rvalue hkind hsign =>
    have hisSome : (node.ofKind? .doubleAmpersand).isSome = rvalue :=
      Bool.eq_iff_iff.mpr (isSome_ofKind?_iff.trans hsign.symm)
    rw [scope.source.declarator_of_reference (DeclaratorFamily.kind_or hkind), hisSome,
      applyDeclarator]
    cases rvalue with
    | true => rw [if_pos rfl, ← DeclaratorLayer.reference_true_wrap]; rfl
    | false => rfl
  | array hkind =>
    rw [scope.source.declarator_of_array (DeclaratorFamily.kind_or hkind)]
    rfl
  | function hkind =>
    rw [scope.source.declarator_of_function (DeclaratorFamily.kind_or hkind)]
    split
    · rw [applyDeclarator_trailing visit hbase]
      rfl
    · rfl

theorem applyDeclarator_of_spellsNamed {node name : Node} {layers : List DeclaratorLayer}
    (h : SpellsNamed scope.source node layers name) {base : QualType}
    (hbase : base.isAuto = false) (given : Option Node) :
    applyDeclarator visit scope (scope.source.declarator node) base given =
      pure { name := some name, ty := readLayers layers base
             params := layers.foldl (fun _ layer => layer.params?) given } := by
  induction h generalizing base given with
  | name hkind =>
    rw [scope.source.declarator_of_identifier hkind]
    rfl
  | parentheses hkind hinner _ ih =>
    rw [scope.source.declarator_of_wrapper (.inl hkind), hinner]
    exact ih hbase given
  | layer hlayer _ ih =>
    rw [applyDeclarator_of_writesLayer visit hlayer hbase]
    exact ih (DeclaratorLayer.isAuto_wrap _ base) _

-- Parentheses are of no kind that is read further, so the declarator ends there.
theorem declarator_of_abstractParentheses (src : Source) {node : Node}
    (hkind : node.kind = DeclaratorFamily.abstract.parentheses) :
    src.declarator node = .named node := by
  rw [Source.declarator]
  simp only [hkind, DeclaratorFamily.parentheses]

theorem applyDeclarator_of_spellsAbstract {node opening : Option Node}
    {outer inside : List DeclaratorLayer}
    (h : SpellsAbstract scope.source node outer opening inside) {base : QualType}
    (hbase : base.isAuto = false) (given : Option Node) :
    applyDeclarator visit scope ((node.map scope.source.declarator).getD .anonymous) base given =
      pure { name := opening, ty := readLayers outer base
             params := outer.foldl (fun _ layer => layer.params?) given } := by
  induction h generalizing base given with
  | nothing => rfl
  | parentheses hkind _ _ _ =>
    rw [Option.map_some, Option.getD_some, declarator_of_abstractParentheses _ hkind]
    rfl
  | layer hlayer _ ih =>
    rw [Option.map_some, Option.getD_some, applyDeclarator_of_writesLayer visit hlayer hbase]
    exact ih (DeclaratorLayer.isAuto_wrap _ base) _

theorem applyNode_of_spellsNamed {node name : Node} {layers : List DeclaratorLayer}
    (h : SpellsNamed scope.source node layers name) {base : QualType}
    (hbase : base.isAuto = false) :
    applyNode visit scope (some node) base = pure (Declared.ofLayers layers name base) := by
  rw [Declared.ofLayers, ← foldl_params?_eq]
  exact applyDeclarator_of_spellsNamed visit h hbase none

theorem applyNode_of_spellsAbstract {node opening : Option Node}
    {outer inside : List DeclaratorLayer}
    (h : SpellsAbstract scope.source node outer opening inside) {base : QualType}
    (hbase : base.isAuto = false) :
    applyNode visit scope node base =
      pure { name := opening, ty := readLayers outer base, params := ownParams outer } := by
  rw [← foldl_params?_eq]
  exact applyDeclarator_of_spellsAbstract visit h hbase none

end

/-! ## The two families compared -/

/-- On every base the abstract declarator gives the type that the named one gives, and no name. -/
def DenotesSame (visit : Scope → Node → Lowering Unit) (scope : Scope) (node : Option Node)
    (scope' : Scope) (named : Node) : Prop :=
  ∀ base : QualType, base.isAuto = false → ∃ unnamed declared : Declared,
    applyNode visit scope node base = pure unnamed ∧
    applyNode visit scope' (some named) base = pure declared ∧
    unnamed.ty = declared.ty ∧ unnamed.name = none

theorem pure_injective {a b : Declared} (h : (pure a : Lowering Declared) = pure b) : a = b :=
  congrArg Prod.fst (congrFun h {})

/-- An abstract declarator is read up to its outermost parentheses: the type is the base with the
layers before them put on, and they stand for the name. It denotes what the same layers around a
name denote, and no name, exactly if there are no parentheses. -/
theorem abstractDeclarator_reading (below : Walker) (scope : Scope) {node opening : Option Node}
    {outer inside : List DeclaratorLayer}
    (h : SpellsAbstract scope.source node outer opening inside) :
    (∀ base, base.isAuto = false → applyNode below.visit scope node base =
      pure { name := opening, ty := readLayers outer base, params := ownParams outer }) ∧
    ∀ (scope' : Scope) (named name : Node) (layers : List DeclaratorLayer),
      SpellsNamed scope'.source named layers name →
      layers.map DeclaratorLayer.bare = (outer ++ inside).map DeclaratorLayer.bare →
      (DenotesSame below.visit scope node scope' named ↔ opening = none) := by
  have habstract : ∀ base, base.isAuto = false → applyNode below.visit scope node base =
      pure { name := opening, ty := readLayers outer base, params := ownParams outer } :=
    fun _ hbase => applyNode_of_spellsAbstract below.visit h hbase
  refine ⟨habstract, fun scope' named name layers hnamed hsame => ⟨fun hdenotes => ?_, ?_⟩⟩
  · obtain ⟨unnamed, -, hunnamed, -, -, hnone⟩ := hdenotes (.builtin "void") rfl
    rw [habstract _ rfl] at hunnamed
    rw [← hnone, ← pure_injective hunnamed]
  · rintro rfl base hbase
    obtain rfl := h.inside_eq_nil
    refine ⟨_, _, habstract base hbase, applyNode_of_spellsNamed below.visit hnamed hbase, ?_, rfl⟩
    rw [List.append_nil] at hsame
    change readLayers outer base = readLayers layers base
    rw [← readLayers_map_bare outer, ← hsame, readLayers_map_bare]

/-! ## A pointer to a function -/

/-- The star of `long (*)(int)`. -/
def bareStar : Node :=
  .mk { kind := .abstractPointerDeclarator, span := ⟨6, 7⟩ }
    [.mk { kind := .other "*", span := ⟨6, 7⟩, isNamed := false } []]

def bareParentheses : Node :=
  .mk { kind := .abstractParenthesizedDeclarator, field := some .declarator, span := ⟨5, 8⟩ } [
    .mk { kind := .other "(", span := ⟨5, 6⟩, isNamed := false } [],
    bareStar,
    .mk { kind := .other ")", span := ⟨7, 8⟩, isNamed := false } []]

def bareParams : Node :=
  .mk { kind := .other "parameter_list", field := some .parameters, span := ⟨8, 13⟩ } []

/-- The declarator of `long (*)(int)`. -/
def bareDeclarator : Node :=
  .mk { kind := .abstractFunctionDeclarator, field := some .declarator, span := ⟨5, 13⟩ }
    [bareParentheses, bareParams]

theorem bareStar_spells (src : Source) :
    SpellsAbstract src (some bareStar) [.pointer .none] none [] :=
  .layer (.pointer rfl) .nothing

theorem bareDeclarator_spells (src : Source) :
    SpellsAbstract src (some bareDeclarator) [.function (some bareParams)] (some bareParentheses)
      [.pointer .none] := by
  have hparentheses : SpellsAbstract src (some bareParentheses) [] (some bareParentheses)
      [.pointer .none] := .parentheses rfl rfl (bareStar_spells src)
  exact .layer (.function rfl) hparentheses

def handlerName : Node :=
  .mk { kind := .identifier, field := some .declarator, span := ⟨7, 8⟩ } []

/-- The star of `long (*h)(int)`. -/
def handlerStar : Node :=
  .mk { kind := .pointerDeclarator, span := ⟨6, 8⟩ }
    [.mk { kind := .other "*", span := ⟨6, 7⟩, isNamed := false } [], handlerName]

/-- The declarator of `long (*h)(int)`. -/
def handlerDeclarator : Node :=
  .mk { kind := .functionDeclarator, field := some .declarator, span := ⟨5, 14⟩ } [
    .mk { kind := .parenthesizedDeclarator, field := some .declarator, span := ⟨5, 9⟩ } [
      .mk { kind := .other "(", span := ⟨5, 6⟩, isNamed := false } [],
      handlerStar,
      .mk { kind := .other ")", span := ⟨8, 9⟩, isNamed := false } []],
    .mk { kind := .other "parameter_list", field := some .parameters, span := ⟨9, 14⟩ } []]

theorem handlerStar_spells (src : Source) :
    SpellsNamed src handlerStar [.pointer .none] handlerName :=
  .layer (.pointer rfl) (.name rfl)

theorem handlerDeclarator_spells (src : Source) :
    SpellsNamed src handlerDeclarator
      [.function (handlerDeclarator.field? .parameters), .pointer .none] handlerName :=
  .layer (.function rfl) <| .parentheses rfl rfl <| handlerStar_spells src

def bareScope : Scope := { source := .ofString "long (*)(int)" }

def handlerScope : Scope := { source := .ofString "long (*h)(int)" }

-- The star alone is read alike with and without a name, in parentheses it is lost.
theorem bareDeclarator_reading :
    applyNode visit bareScope (some bareDeclarator) (.builtin "long") = pure {
      name := some bareParentheses
      ty := (QualType.builtin "long").functionReturning
      params := some bareParams } ∧
    ¬ DenotesSame visit bareScope (some bareDeclarator) handlerScope handlerDeclarator ∧
    DenotesSame visit bareScope (some bareStar) handlerScope handlerStar := by
  obtain ⟨hreading, hsame⟩ := abstractDeclarator_reading (walker nestingLimit) bareScope
    (bareDeclarator_spells bareScope.source)
  have hdiffer := hsame handlerScope handlerDeclarator handlerName _
    (handlerDeclarator_spells handlerScope.source) rfl
  obtain ⟨-, hsameStar⟩ := abstractDeclarator_reading (walker nestingLimit) bareScope
    (bareStar_spells bareScope.source)
  have hstar := hsameStar handlerScope handlerStar handlerName _
    (handlerStar_spells handlerScope.source) rfl
  refine ⟨hreading (.builtin "long") rfl, fun hdenotes => ?_, hstar.mpr rfl⟩
  cases hdiffer.mp hdenotes

end Lowering

end WidthCheck
