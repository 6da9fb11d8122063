import WidthCheck.Lowering.Names

/-!
# Functions declared out of line

The name of such a function has the scopes it belongs to written in front: `a::b::x` is a member of
`b`. In the tree the qualifiers nest to the right, so that the first one is next to the root and the
last one next to the name. The kind of the function is told by the first.
-/

namespace WidthCheck

/-- The nodes that write a name with qualifiers in front of it, the outermost qualifier first. -/
inductive Qualifies : Node → List Node → Node → Prop where
  | one {node qualifier name : Node} (hkind : node.kind = .qualifiedIdentifier)
      (hscope : node.field? .scope = some qualifier) (hname : node.field? .name = some name)
      (hplain : name.kind ≠ .qualifiedIdentifier) : Qualifies node [qualifier] name
  | more {node qualifier inner name : Node} {rest : List Node}
      (hkind : node.kind = .qualifiedIdentifier) (hscope : node.field? .scope = some qualifier)
      (hinner : node.field? .name = some inner) (h : Qualifies inner rest name) :
      Qualifies node (qualifier :: rest) name

theorem Node.innermostName_of_field? {node inner : Node} (hkind : node.kind = .qualifiedIdentifier)
    (hinner : node.field? .name = some inner) : node.innermostName = inner.innermostName := by
  rw [innermostName, if_pos hkind]
  split
  · rename_i name hname
    rw [hinner] at hname
    rw [Option.some.inj hname]
  · rename_i hnone
    rw [hinner] at hnone
    cases hnone

namespace Qualifies

variable {node name : Node} {qualifiers : List Node}

theorem kind_eq (h : Qualifies node qualifiers name) : node.kind = .qualifiedIdentifier := by
  cases h <;> assumption

theorem field?_scope (h : Qualifies node qualifiers name) :
    node.field? .scope = qualifiers.head? := by
  cases h <;> assumption

theorem innermostName_eq (h : Qualifies node qualifiers name) : node.innermostName = name := by
  induction h with
  | one hkind _ hname hplain =>
    rw [Node.innermostName_of_field? hkind hname, Node.innermostName, if_neg hplain]
  | more hkind _ hinner _ ih => rw [Node.innermostName_of_field? hkind hinner, ih]

end Qualifies

/-- The kind of a function that belongs to the scope of this name. A scope that is no known record
is a namespace. -/
def ContextKind.ofMember (records : List String) (scope function : String) : ContextKind :=
  if scope = function then .constructor
  else if scope ∈ records then .method
  else .function

-- Whether two scopes make the same of a function is decided by the two questions that are asked.
theorem ContextKind.ofMember_eq_iff {records : List String} {scope scope' function : String} :
    ofMember records scope function = ofMember records scope' function ↔
      (scope = function ↔ scope' = function) ∧
        (scope ≠ function → (scope ∈ records ↔ scope' ∈ records)) := by
  unfold ofMember
  by_cases hscope : scope = function
  · rw [if_pos hscope]
    by_cases hscope' : scope' = function
    · simp [hscope, hscope']
    · rw [if_neg hscope']
      by_cases hknown : scope' ∈ records <;> simp [hscope, hscope', hknown]
  · rw [if_neg hscope]
    by_cases hscope' : scope' = function
    · rw [if_pos hscope']
      by_cases hknown : scope ∈ records <;> simp [hscope, hscope', hknown]
    · rw [if_neg hscope']
      by_cases hknown : scope ∈ records <;> by_cases hknown' : scope' ∈ records <;>
        simp [hscope, hscope', hknown, hknown']

namespace Lowering

variable {scope : Scope} {s : State} {node name outer : Node} {rest : List Node}

/-- The kind of a function by one of its qualifiers. -/
def kindBy (scope : Scope) (s : State) (name qualifier : Node) : ContextKind :=
  .ofMember s.knownRecords (scope.source.simpleName qualifier) (scope.source.simpleName name)

-- Outside records, a qualified name is looked at through its own scope only.
theorem functionKind_eq_kindBy (hkind : node.kind = .qualifiedIdentifier)
    (hscope : node.field? .scope = some outer)
    (hdestructor : node.innermostName.kind ≠ .destructorName)
    (hconversion : node.innermostName.kind ≠ .operatorCast)
    (houtside : (currentKind scope s).1 ≠ .record) :
    functionKind scope node s = (kindBy scope s node.innermostName outer, s) := by
  have hrecord : ((currentKind scope s).1 == ContextKind.record) = false := beq_false_of_ne houtside
  fun_cases functionKind scope node with
  | case1 _ h => exact absurd h hdestructor
  | case2 _ h => exact absurd h hconversion
  | case3 inner simple qualifier =>
    have hqualifier : qualifier = some (scope.source.simpleName outer) := by
      show (if node.kind = .qualifiedIdentifier then _ else _) = _
      rw [if_pos hkind, hscope, Option.map_some]
    rw [hqualifier]
    show (if scope.source.simpleName outer == scope.source.simpleName node.innermostName then
      ContextKind.constructor else if (currentKind scope s).1 == .record ||
        s.knownRecords.contains (scope.source.simpleName outer) then .method else .function, s) = _
    rw [hrecord, Bool.false_or]
    simp only [kindBy, ContextKind.ofMember, beq_iff_eq, List.contains_iff_mem]

/-- Outside records the kind of a function `a::…::b::x` is the one that its outermost qualifier `a`
tells. The function belongs to `b`; that `b` tells the same holds exactly if both are the name of
the function or neither is, and, if neither is, both are known records or neither is. -/
theorem functionKind_of_qualifies (scope : Scope) (s : State)
    (h : Qualifies node (outer :: rest) name)
    (hdestructor : name.kind ≠ .destructorName) (hconversion : name.kind ≠ .operatorCast)
    (houtside : (currentKind scope s).1 ≠ .record) :
    let inner := (outer :: rest).getLast (List.cons_ne_nil outer rest)
    functionKind scope node s = (kindBy scope s name outer, s) ∧
      ((functionKind scope node s).1 = kindBy scope s name inner ↔
        (scope.source.simpleName outer = scope.source.simpleName name ↔
          scope.source.simpleName inner = scope.source.simpleName name) ∧
        (scope.source.simpleName outer ≠ scope.source.simpleName name →
          (scope.source.simpleName outer ∈ s.knownRecords ↔
            scope.source.simpleName inner ∈ s.knownRecords))) := by
  intro inner
  have hname := h.innermostName_eq
  have hrun : functionKind scope node s = (kindBy scope s name outer, s) := by
    rw [← hname] at hdestructor hconversion ⊢
    exact functionKind_eq_kindBy h.kind_eq h.field?_scope hdestructor hconversion houtside
  refine ⟨hrun, ?_⟩
  rw [hrun]
  exact ContextKind.ofMember_eq_iff

/-! ## A constructor in a namespace -/

/-- The name `S`, the last of `N::S::S`. -/
def constructorName : Node :=
  .mk { kind := .identifier, field := some .name, span := ⟨6, 7⟩ } []

def namespaceQualifier : Node :=
  .mk { kind := .other "namespace_identifier", field := some .scope, span := ⟨0, 1⟩ } []

def recordQualifier : Node :=
  .mk { kind := .other "namespace_identifier", field := some .scope, span := ⟨3, 4⟩ } []

/-- The name `N::S::S`. -/
def qualifiedConstructor : Node :=
  .mk { kind := .qualifiedIdentifier, field := some .declarator, span := ⟨0, 7⟩ } [
    namespaceQualifier,
    .mk { kind := .other "::", span := ⟨1, 3⟩, isNamed := false } [],
    .mk { kind := .qualifiedIdentifier, field := some .name, span := ⟨3, 7⟩ } [
      recordQualifier,
      .mk { kind := .other "::", span := ⟨4, 6⟩, isNamed := false } [],
      constructorName]]

theorem qualifiedConstructor_qualifies :
    Qualifies qualifiedConstructor [namespaceQualifier, recordQualifier] constructorName :=
  .more rfl rfl rfl (.one rfl rfl rfl (by decide))

def constructorScope : Scope := { source := .ofString "N::S::S" }

theorem qualifiedConstructor_function :
    Qualifies qualifiedConstructor [namespaceQualifier, recordQualifier] constructorName ∧
      (functionKind constructorScope qualifiedConstructor { knownRecords := ["S"] }).1 =
        .function ∧
      kindBy constructorScope { knownRecords := ["S"] } constructorName recordQualifier =
        .constructor := by
  obtain ⟨hrun, -⟩ := functionKind_of_qualifies constructorScope { knownRecords := ["S"] }
    qualifiedConstructor_qualifies (by decide) (by decide) (by decide)
  refine ⟨qualifiedConstructor_qualifies, ?_, by decide +kernel⟩
  rw [hrun]
  decide +kernel

end Lowering

end WidthCheck
