import Mathlib.Data.List.Nodup
import WidthCheck.Proofs.Lowering.Casts
import WidthCheck.Proofs.Lowering.WalkEffect

/-!
# The initializers of a declaration

The declarators of a declaration take turns: the type of one is deduced from its initializer if it
has to be, the name is declared, and the initializer is walked. An initializer is written inside its
declarator or beside it, before the next one. Of those written beside, every declarator takes the
first.
-/

namespace WidthCheck

namespace Node

/-! ## Declarators and initializers side by side -/

def isDeclarator (n : Node) : Bool := n.label.field == some .declarator

def isInitializer (n : Node) : Bool :=
  n.label.field == some .value || n.label.field == some .defaultValue

/-- Whether the initializer of a declarator is written beside it. -/
def isPlainDeclarator (n : Node) : Bool := n.kind != .initDeclarator

/-- The part of a declarator that its initializer is not in. -/
def target? (n : Node) : Option Node :=
  if n.isPlainDeclarator then some n else n.field? .declarator

/-- The declarators in a row of children with their own initializers. -/
def pairInitializers : List Node → List (Node × Option Node)
  | [] => []
  | n :: rest =>
      if n.isDeclarator then
        (n, if n.isPlainDeclarator then (rest.takeWhile (!·.isDeclarator)).find? isInitializer
          else n.field? .value) :: pairInitializers rest
      else pairInitializers rest

/-- The declarators of a declaration with their own initializers. -/
def ownInitializers (owner : Node) : List (Node × Option Node) := pairInitializers owner.children

/-- The initializers that are written beside the declarators. -/
def besideInitializers (owner : Node) : List Node := owner.children.filter isInitializer

/-- The first initializer beside the declarators. -/
def firstBeside? (owner : Node) : Option Node :=
  (owner.field? .value).or (owner.field? .defaultValue)

/-- The declarators of a declaration with the initializers they take. -/
def takenInitializers (owner : Node) : List (Node × Option Node) :=
  (owner.fieldAll .declarator).map fun n =>
    (n, if n.isPlainDeclarator then owner.firstBeside? else n.field? .value)

/-- The declarators of a declaration that have their initializers beside them. -/
def plainDeclarators (owner : Node) : List Node :=
  (owner.fieldAll .declarator).filter isPlainDeclarator

/-- Every initializer beside the declarators of a declaration is that of just one of them. -/
structure AttachesInitializers (owner : Node) : Prop where
  attached : owner.besideInitializers =
    (owner.ownInitializers.filter (·.1.isPlainDeclarator)).filterMap Prod.snd
  nodup : owner.besideInitializers.Nodup

theorem map_fst_pairInitializers (row : List Node) :
    (pairInitializers row).map Prod.fst = row.filter isDeclarator := by
  induction row with
  | nil => rfl
  | cons n rest ih =>
    rw [pairInitializers, List.filter_cons]
    split
    · rw [List.map_cons, ih]
    · exact ih

theorem snd_of_mem_pairInitializers {row : List Node} {pair : Node × Option Node}
    (h : pair ∈ pairInitializers row) (hinside : pair.1.isPlainDeclarator = false) :
    pair.2 = pair.1.field? .value := by
  induction row with
  | nil => cases h
  | cons n rest ih =>
    rw [pairInitializers] at h
    split at h
    · rcases List.mem_cons.mp h with rfl | h
      · exact if_neg (by simpa using hinside)
      · exact ih h
    · exact ih h

variable {owner : Node}

theorem map_fst_ownInitializers (owner : Node) :
    owner.ownInitializers.map Prod.fst = owner.fieldAll .declarator :=
  map_fst_pairInitializers owner.children

theorem mem_besideInitializers_of_firstBeside? {n : Node} (h : owner.firstBeside? = some n) :
    n ∈ owner.besideInitializers := by
  apply List.mem_filter.mpr
  rcases Option.or_eq_some_iff.mp h with h | ⟨-, h⟩
  all_goals
    refine ⟨mem_children_of_field? h, ?_⟩
    simp [isInitializer, role_of_field? h]

theorem besideInitializers_eq_nil (h : owner.firstBeside? = none) :
    owner.besideInitializers = [] := by
  obtain ⟨hvalue, hdefault⟩ := Option.or_eq_none_iff.mp h
  apply List.filter_eq_nil_iff.mpr
  intro n hn
  have hvalue := List.find?_eq_none.mp hvalue n hn
  have hdefault := List.find?_eq_none.mp hdefault n hn
  simp_all [isInitializer]

-- All take the first one, so it is the own one of all only if there is nothing to confuse.
theorem forall_takes_own_iff {pairs : List (Node × Option Node)} {first : Option Node}
    (hmem : ∀ n ∈ first, n ∈ pairs.filterMap Prod.snd)
    (hnone : first = none → pairs.filterMap Prod.snd = [])
    (hnodup : (pairs.filterMap Prod.snd).Nodup) :
    (∀ pair ∈ pairs, first = pair.2) ↔
      pairs.length ≤ 1 ∨ pairs.filterMap Prod.snd = [] := by
  constructor
  · intro h
    cases hfirst : first with
    | none => exact .inr (hnone hfirst)
    | some n =>
      left
      subst hfirst
      cases pairs with
      | nil => exact Nat.zero_le 1
      | cons pair rest =>
        cases rest with
        | nil => exact Nat.le_refl 1
        | cons next rest =>
          have hpair := h pair (by simp)
          have hnext := h next (by simp)
          simp [← hpair, ← hnext] at hnodup
  · rintro (hlength | hempty) pair hpair
    · obtain ⟨only, rfl⟩ : ∃ only, pairs = [only] :=
        List.length_eq_one_iff.mp (by have := List.length_pos_of_mem hpair; omega)
      rw [List.mem_singleton.mp hpair]
      cases hown : only.2 with
      | none =>
        cases first with
        | none => rfl
        | some n => simpa [hown] using hmem n rfl
      | some own =>
        cases first with
        | none => simpa [hown] using hnone rfl
        | some n => simpa [hown] using hmem n rfl
    · have hfirst : first = none := by
        cases first with
        | none => rfl
        | some n =>
          have hn := hmem n rfl
          rw [hempty] at hn
          cases hn
      rw [hfirst, List.filterMap_eq_nil_iff.mp hempty pair hpair]

theorem takenInitializers_eq_ownInitializers_iff (h : owner.AttachesInitializers) :
    owner.takenInitializers = owner.ownInitializers ↔
      owner.plainDeclarators.length ≤ 1 ∨ owner.besideInitializers = [] := by
  have hplain : owner.plainDeclarators.length =
      (owner.ownInitializers.filter (·.1.isPlainDeclarator)).length := by
    rw [plainDeclarators, ← map_fst_ownInitializers, List.filter_map, List.length_map]
    rfl
  have htaken : owner.takenInitializers = owner.ownInitializers ↔
      ∀ pair ∈ owner.ownInitializers.filter (·.1.isPlainDeclarator),
        owner.firstBeside? = pair.2 := by
    rw [takenInitializers, ← map_fst_ownInitializers, List.map_map]
    nth_rewrite 2 [← List.map_id owner.ownInitializers]
    rw [List.map_inj_left]
    constructor
    · intro hall pair hpair
      obtain ⟨hmem, hkind⟩ := List.mem_filter.mp hpair
      have heq := congrArg Prod.snd (hall pair hmem)
      simpa [hkind] using heq
    · intro hall pair hmem
      cases hkind : pair.1.isPlainDeclarator with
      | true =>
        have heq := hall pair (List.mem_filter.mpr ⟨hmem, hkind⟩)
        simp [hkind, heq]
      | false =>
        have heq := snd_of_mem_pairInitializers hmem hkind
        simp [hkind, ← heq]
  rw [htaken, hplain, h.attached]
  apply forall_takes_own_iff
  · intro n hn
    rw [← h.attached]
    exact mem_besideInitializers_of_firstBeside? hn
  · intro hnone
    rw [← h.attached, besideInitializers_eq_nil hnone]
  · rw [← h.attached]
    exact h.nodup

end Node

namespace Lowering

/-! ## Taking turns -/

section

variable (below : Walker) (scope : Scope) (owner : Node) (kind : ValueKind) (base : QualType)

/-- The kind of value that a declaration declares. -/
def valueKind (context : ContextKind) : ValueKind :=
  if context == .record && !isStatic scope.source owner then .field else .var

/-- Declares what a declarator declares, its base type being known. -/
def declareAs (declarator : Node) (ty : QualType) : Lowering Unit := do
  let declared ← applyNode below.visit scope declarator.target? ty
  visitDeclared below scope owner kind declared

/-- Deduces the base type of a declarator if it has to be, declares the name and walks the
initializer. -/
def takeTurn (pair : Node × Option Node) : Lowering Unit := do
  let ty ← declaratorBase below scope base pair.2
  declareAs below scope owner kind pair.1 ty
  visitField below scope pair.2

/-- Declares declarators with these initializers in turn. -/
def declareInTurn (pairs : List (Node × Option Node)) : Lowering Unit := do
  let base ← baseType below.visit scope owner
  let kind := valueKind scope owner (← currentKind scope)
  pairs.forM (takeTurn below scope owner kind base)

theorem splitInitializer_eq (declarator : Node) :
    splitInitializer owner declarator =
      if declarator.isPlainDeclarator then (some declarator, owner.firstBeside?)
      else (declarator.field? .declarator, declarator.field? .value) := by
  unfold splitInitializer Node.isPlainDeclarator
  by_cases h : declarator.kind = .initDeclarator <;> simp [h, Node.firstBeside?]

theorem visitDeclarator_eq (declarator : Node) :
    visitDeclarator below scope owner kind base declarator =
      takeTurn below scope owner kind base (declarator,
        if declarator.isPlainDeclarator then owner.firstBeside?
        else declarator.field? .value) := by
  unfold visitDeclarator takeTurn declareAs
  rw [splitInitializer_eq, Node.target?]
  cases declarator.isPlainDeclarator <;> simp only [bind_assoc] <;> rfl

/-- Each declarator is declared in turn, with the initializer it takes. -/
theorem visitDeclaration_eq :
    visitDeclaration below scope owner =
      declareInTurn below scope owner owner.takenInitializers := by
  have hturns : ∀ kind base,
      (owner.fieldAll .declarator).forM (visitDeclarator below scope owner kind base) =
        owner.takenInitializers.forM (takeTurn below scope owner kind base) := by
    intro kind base
    rw [Node.takenInitializers, List.forM_eq_forM, List.forM_eq_forM, List.forM_map]
    exact congrArg _ (funext fun declarator => visitDeclarator_eq below scope owner kind base _)
  unfold visitDeclaration declareInTurn
  simp only [hturns]
  rfl

end

/-- The casts of an initializer, if there is one. -/
def Scope.initializerCasts (scope : Scope) (value : Option Node) : List StaticCast :=
  (value.map scope.castsIn).getD []

/-- Declarators with these initializers are declared in turn, from one state to another. In its turn
a declarator has its type deduced from its initializer alone, which adds nothing to the unit; with
that type it is declared; and then the casts of its initializer are added, each once. -/
inductive Turns (below : Walker) (scope : Scope) (owner : Node) (kind : ValueKind)
    (base : QualType) : List (Node × Option Node) → State → State → Prop where
  | done (s : State) : Turns below scope owner kind base [] s s
  | turn {declarator : Node} {value : Option Node} {rest : List (Node × Option Node)}
      {ty : QualType} {s deduced t u : State}
      (hdeduced : declaratorBase below scope base value s = (ty, deduced))
      (hquiet : deduced.unit = s.unit)
      (hunit : t.unit = (declareAs below scope owner kind declarator ty deduced).2.unit.addEntities
        ((scope.initializerCasts value).map .cast))
      (hrest : Turns below scope owner kind base rest t u) :
      Turns below scope owner kind base ((declarator, value) :: rest) s u

section

variable {scope : Scope} {owner : Node} {levels : Nat}

theorem declaratorBase_quiet (base : QualType) {value : Option Node}
    (hvalue : ∀ node ∈ value, node.IsExpression) :
    Adds (declaratorBase (walker levels) scope base value) [] := by
  have hdeduced : Adds (deduceAuto (walker levels) scope base value) [] := by
    unfold deduceAuto
    split
    · exact .pure _
    · rename_i node
      refine .quiet_bind (walker_infersQuietly levels scope node (hvalue node rfl)) fun found => ?_
      split <;> exact .pure _
  unfold declaratorBase
  split
  · exact hdeduced
  · exact .pure _

theorem visitField_adds {value : Option Node}
    (hvalue : ∀ node ∈ value, node.IsExpression ∧ node.height ≤ levels) :
    Adds (visitField (walker levels) scope value)
      ((scope.initializerCasts value).map .cast) := by
  cases value with
  | none => exact .pure ()
  | some node =>
    obtain ⟨hexpression, hheight⟩ := hvalue node rfl
    exact walker_visit_adds hexpression hheight

theorem forM_takeTurn (kind : ValueKind) (base : QualType) {pairs : List (Node × Option Node)}
    (h : ∀ pair ∈ pairs, ∀ value ∈ pair.2, value.IsExpression ∧ value.height ≤ levels)
    (s : State) :
    Turns (walker levels) scope owner kind base pairs s
      (pairs.forM (takeTurn (walker levels) scope owner kind base) s).2 := by
  induction pairs generalizing s with
  | nil => exact .done s
  | cons pair rest ih =>
    obtain ⟨hpair, hrest⟩ := List.forall_mem_cons.mp h
    have hquiet : (declaratorBase (walker levels) scope base pair.2 s).2.unit = s.unit := by
      rw [declaratorBase_quiet base fun node hnode => (hpair node hnode).1,
        CompilationUnit.addEntities_nil]
    exact .turn (Prod.eta _).symm hquiet (visitField_adds hpair _) (ih hrest _)

end

/-! ## Declarations of values -/

end Lowering

/-- Whether a declarator has neither parameters nor types of its own. -/
def Declarator.isSimple : Declarator → Bool
  | .anonymous | .named _ => true
  | .pointer _ inner | .reference _ inner | .array _ inner => inner.isSimple
  | .function .. | .trailing .. | .conversion .. => false

/-- No declarator of a declaration writes parameters, and nothing in it is a body. -/
structure Node.DeclaresValues (src : Source) (owner : Node) : Prop where
  isSimple : ∀ n ∈ owner.fieldAll .declarator,
    ((n.target?.map src.declarator).getD .anonymous).isSimple = true
  noBody : owner.named.filter Lowering.isFunctionBody = []

namespace Lowering

theorem applyDeclarator_of_isSimple (visit : Scope → Node → Lowering Unit) (scope : Scope)
    (declarator : Declarator) (h : declarator.isSimple = true) (ty : QualType) :
    ∃ declared : Declared, declared.params = none ∧
      applyDeclarator visit scope declarator ty none = pure declared := by
  cases declarator with
  | anonymous | named node => exact ⟨_, rfl, rfl⟩
  | pointer quals inner | reference rvalue inner | array bound inner =>
    exact applyDeclarator_of_isSimple visit scope inner h _
  | function params inner | trailing params result inner | conversion name target => cases h

/-- The step records no cast. -/
def RecordsNoCast {α : Type} (step : Lowering α) : Prop :=
  ∀ s, (step s).2.unit.casts = s.unit.casts

theorem recordsNoCast_of_adds {α : Type} {step : Lowering α} (h : Adds step []) :
    RecordsNoCast step := by
  intro s
  rw [h, CompilationUnit.addEntities_nil]

theorem declare_recordsNoCast (scope : Scope) (name : String) (kind : ValueKind) (ty : QualType)
    (location : Option Position) : RecordsNoCast (declare scope name kind ty location) := by
  intro s
  have hvalue (decl : ValueDecl) : (s.unit.addEntity (.value decl)).casts = s.unit.casts := by
    simp [CompilationUnit.casts, CompilationUnit.addEntity]
  unfold declare
  split
  · exact hvalue _
  · exact hvalue _

section

variable {below : Walker} {scope : Scope} {owner : Node} {kind : ValueKind} {declared : Declared}

-- A function may be declared without parameters, if that is what the base type denotes.
theorem visitFunction_recordsNoCast (hbody : owner.named.filter isFunctionBody = [])
    (hparams : declared.params = none) (returnType : QualType) :
    RecordsNoCast (visitFunction below scope owner declared returnType) := by
  intro s
  unfold visitFunction
  cases declared.name with
  | none => rfl
  | some nameNode =>
    obtain ⟨decl, -, -, -, hopen⟩ := openFunction_run scope nameNode returnType s
    have hopened : (s.functionOpened scope decl).unit.casts = s.unit.casts := by
      simp [CompilationUnit.casts, State.functionOpened, State.opened, CompilationUnit.addEntity,
        CompilationUnit.addContext]
    have hregister (types : List QualType) :
        Adds (registerFunction scope owner nameNode types s.pendingTemplate) [] := by
      cases s.pendingTemplate <;> exact .of_unit_eq fun _ => rfl
    simp only [bind_run, hopen, hparams, hbody]
    -- Nothing is left to be walked inside the function.
    refine (recordsNoCast_of_adds (.withFrame ?_) _).trans hopened
    refine .quiet_bind (.pure []) fun types => (hregister types).quiet_bind fun _ => ?_
    split <;> exact .pure ()

theorem visitDeclared_recordsNoCast (hbody : owner.named.filter isFunctionBody = [])
    (hparams : declared.params = none) :
    RecordsNoCast (visitDeclared below scope owner kind declared) := by
  unfold visitDeclared
  split
  · exact visitFunction_recordsNoCast hbody hparams _
  · exact declare_recordsNoCast _ _ _ _ _
  · exact fun _ => rfl

theorem declareAs_recordsNoCast (h : owner.DeclaresValues scope.source) {declarator : Node}
    (hdeclarator : declarator ∈ owner.fieldAll .declarator) (ty : QualType) :
    RecordsNoCast (declareAs below scope owner kind declarator ty) := by
  obtain ⟨declared, hparams, happly⟩ :=
    applyDeclarator_of_isSimple below.visit scope _ (h.isSimple declarator hdeclarator) ty
  unfold declareAs applyNode
  rw [happly, pure_bind]
  exact visitDeclared_recordsNoCast h.noBody hparams

end

theorem Turns.casts_eq {below : Walker} {scope : Scope} {owner : Node} {kind : ValueKind}
    {base : QualType} {pairs : List (Node × Option Node)} {s t : State}
    (hturns : Turns below scope owner kind base pairs s t) (h : owner.DeclaresValues scope.source)
    (hpairs : ∀ pair ∈ pairs, pair.1 ∈ owner.fieldAll .declarator) :
    t.unit.casts = s.unit.casts ++ pairs.flatMap fun pair => scope.initializerCasts pair.2 := by
  induction hturns with
  | done s => simp
  | turn hdeduced hquiet hunit hrest ih =>
    obtain ⟨hpair, hpairs⟩ := List.forall_mem_cons.mp hpairs
    rw [ih hpairs, hunit, CompilationUnit.casts_addEntities_cast, declareAs_recordsNoCast h hpair,
      hquiet, List.flatMap_cons, List.append_assoc]

/-- The declarators of a declaration are declared in turn, each with the initializer it takes: that
is walked once, its casts are recorded once, and only a placeholder looks at it before. A
declaration of values records no other casts. All declarators take their own initializers exactly
if at most one of them has its initializer beside it, or none is written there; otherwise those
without one inside take the first. -/
theorem declaration_initializers (scope : Scope) {owner : Node} (h : owner.AttachesInitializers) :
    (owner.takenInitializers = owner.ownInitializers ↔
      owner.plainDeclarators.length ≤ 1 ∨ owner.besideInitializers = []) ∧
    (∀ below, visitDeclaration below scope owner =
      declareInTurn below scope owner owner.takenInitializers) ∧
    ∀ levels, (∀ pair ∈ owner.takenInitializers, ∀ value ∈ pair.2,
        value.IsExpression ∧ value.height ≤ levels) →
      ∀ s t u base, baseType (walker levels).visit scope owner s = (base, t) →
        (visitDeclaration (walker levels) scope owner s).2 = u →
        (∃ kind, Turns (walker levels) scope owner kind base owner.takenInitializers t u) ∧
        (owner.DeclaresValues scope.source → u.unit.casts =
          t.unit.casts ++ owner.takenInitializers.flatMap fun pair =>
            scope.initializerCasts pair.2) := by
  refine ⟨Node.takenInitializers_eq_ownInitializers_iff h,
    fun below => visitDeclaration_eq below scope owner, ?_⟩
  intro levels hvalues s t u base hbase hrun
  have hturns : ∃ kind,
      Turns (walker levels) scope owner kind base owner.takenInitializers t u := by
    refine ⟨valueKind scope owner (currentKind scope t).1, ?_⟩
    rw [← hrun, visitDeclaration_eq, declareInTurn, bind_run, hbase]
    exact forM_takeTurn _ base hvalues t
  refine ⟨hturns, fun hdeclares => ?_⟩
  obtain ⟨kind, hturns⟩ := hturns
  apply hturns.casts_eq hdeclares
  intro pair hpair
  obtain ⟨declarator, hmem, rfl⟩ := List.mem_map.mp hpair
  exact hmem

/-! ## Two fields with an initializer each -/

def firstField : Node :=
  .mk { kind := .other "field_identifier", field := some .declarator, span := ⟨2, 3⟩ } []

def secondField : Node :=
  .mk { kind := .other "field_identifier", field := some .declarator, span := ⟨25, 26⟩ } []

def firstFieldCast : Node :=
  castCall (some .defaultValue) 6 23 (.mk { kind := .identifier, span := ⟨21, 22⟩ } [])

def secondFieldCast : Node :=
  castCall (some .defaultValue) 29 46 (.mk { kind := .identifier, span := ⟨44, 45⟩ } [])

/-- The fields `T a = static_cast<A>(x), b = static_cast<B>(y);`. -/
def twoFields : Node :=
  .mk { kind := .fieldDeclaration, span := ⟨0, 47⟩ } [
    .mk { kind := .typeIdentifier, field := some .type, span := ⟨0, 1⟩ } [],
    firstField,
    .mk { kind := .other "=", span := ⟨4, 5⟩, isNamed := false } [],
    firstFieldCast,
    .mk { kind := .other ",", span := ⟨23, 24⟩, isNamed := false } [],
    secondField,
    .mk { kind := .other "=", span := ⟨27, 28⟩, isNamed := false } [],
    secondFieldCast,
    .mk { kind := .other ";", span := ⟨46, 47⟩, isNamed := false } []]

def twoFieldsScope : Scope :=
  { source := .ofString "T a = static_cast<A>(x), b = static_cast<B>(y);" }

theorem twoFields_attachesInitializers : twoFields.AttachesInitializers where
  attached := rfl
  nodup := List.Nodup.of_map Node.span (by decide)

theorem firstFieldCast_isExpression : firstFieldCast.IsExpression ∧ firstFieldCast.height ≤ 5 := by
  unfold Node.IsExpression
  decide

theorem twoFields_declaresValues (src : Source) : twoFields.DeclaresValues src where
  isSimple := by
    have hfields : twoFields.fieldAll .declarator = [firstField, secondField] := rfl
    rw [hfields]
    simp only [List.forall_mem_cons, List.not_mem_nil, false_implies, implies_true, and_true]
    constructor <;> cbv
  noBody := rfl

/-- The second field takes the initializer of the first, so that the cast in that one is recorded
twice and its own not at all. -/
theorem twoFields_take_first :
    twoFields.AttachesInitializers ∧ twoFields.takenInitializers ≠ twoFields.ownInitializers ∧
      (visitDeclaration (walker 5) twoFieldsScope twoFields {}).2.unit.casts.map (·.typeLocation) =
        [some ⟨1, 19, 18, 1⟩, some ⟨1, 19, 18, 1⟩] := by
  have h := twoFields_attachesInitializers
  obtain ⟨hiff, -, hturns⟩ := declaration_initializers twoFieldsScope h
  refine ⟨h, ?_, ?_⟩
  · rw [Ne, hiff]
    rintro (hlength | hempty)
    · revert hlength
      decide
    · cases hempty
  · have htaken : twoFields.takenInitializers =
        [(firstField, some firstFieldCast), (secondField, some firstFieldCast)] := rfl
    rw [htaken] at hturns
    obtain ⟨-, hcasts⟩ := hturns 5 (by simpa using firstFieldCast_isExpression) {} {} _ _ rfl rfl
    rw [hcasts (twoFields_declaresValues _)]
    decide +kernel

end Lowering

end WidthCheck
