import Mathlib.Data.List.Forall2
import WidthCheck.Rule.NoLong

/-!
# What `no-long` reports

The rule asks for integers and references to integers and classifies what it gets. Its findings are
described here without matchers: which entities are flagged, and what is said about each of them.
The rule reports exactly these findings, whatever aliases and enumerations the unit declares.
-/

namespace WidthCheck

namespace AmbiguousType

theorem ofSpelling?_eq_some_iff {spelling : String} {type : AmbiguousType} :
    ofSpelling? spelling = some type ↔ spelling = type.spelling := by
  cases type <;> grind [ofSpelling?, AmbiguousType.spelling]

-- A type is classified by the builtin it is, or refers to; its qualifiers do not count.
theorem classify?_eq_some_iff {ty : QualType} {type : AmbiguousType} :
    classify? ty = some type ↔ ∃ quals, ty.referee = .base .builtin type.spelling quals := by
  unfold classify?
  split
  · rename_i spelling quals hreferee
    rw [ofSpelling?_eq_some_iff, hreferee]
    simp only [QualType.base.injEq, true_and, exists_and_left, exists_eq', and_true]
  · rename_i hother
    constructor
    · intro h
      cases h
    · rintro ⟨quals, hreferee⟩
      exact absurd hreferee (hother _ _)

end AmbiguousType

namespace NoLong

open AmbiguousType

/-! ## Flagged entities and their findings -/

/-- The context at an index is a function made from a template because it is used. An index that
is not in use names no such function. -/
def ImplicitlyInstantiated (contexts : Array DeclContext) (index : Nat) : Prop :=
  ∃ context, contexts[index]? = some context ∧ context.kind.isFunctionLike = true ∧
    context.specialization = .implicitInstantiation

theorem isImplicitInstantiation_iff (unit : CompilationUnit) (index : Nat) :
    isImplicitInstantiation (unit.context? index) = true ↔
      ImplicitlyInstantiated unit.contexts index := by
  unfold isImplicitInstantiation ImplicitlyInstantiated CompilationUnit.context?
  cases unit.contexts[index]? <;> simp

instance (contexts : Array DeclContext) (index : Nat) :
    Decidable (ImplicitlyInstantiated contexts index) :=
  decidable_of_iff _ (isImplicitInstantiation_iff { contexts } index)

/-- The entities that the rule is about: they have a place in the text and an ambiguous type, and
a declaration does not stand in an implicit instantiation. -/
def Flagged (contexts : Array DeclContext) : Entity → Prop
  | .value decl => decl.location.isSome ∧ (classify? decl.ty).isSome ∧
      ¬ ImplicitlyInstantiated contexts decl.context
  | .function decl => decl.location.isSome ∧ (classify? decl.returnType).isSome
  | .cast expr => expr.typeLocation.isSome ∧ (classify? expr.destination).isSome

instance (contexts : Array DeclContext) : DecidablePred (Flagged contexts)
  | .value _ => inferInstanceAs (Decidable (_ ∧ _ ∧ ¬ _))
  | .function _ => inferInstanceAs (Decidable (_ ∧ _))
  | .cast _ => inferInstanceAs (Decidable (_ ∧ _))

/-- What the rule says about an entity, and where. A cast is reported at its destination type. -/
inductive Finding : Entity → Diagnostic → Prop where
  | value {decl : ValueDecl} {position : Position} {type : AmbiguousType}
      (hlocation : decl.location = some position) (htype : classify? decl.ty = some type) :
      Finding (.value decl) {
        location := some position
        template := "Variable %0 declared as %1.  %2."
        args := [.decl decl.name, .type decl.ty, .text type.remediation] }
  | function {decl : FunctionDecl} {position : Position} {type : AmbiguousType}
      (hlocation : decl.location = some position) (htype : classify? decl.returnType = some type) :
      Finding (.function decl) {
        location := some position
        template := "Function %0 declared as returning %1.  %2."
        args := [.decl decl.name, .type decl.returnType, .text type.remediation] }
  | cast {expr : StaticCast} {position : Position} {type : AmbiguousType}
      (hlocation : expr.typeLocation = some position)
      (htype : classify? expr.destination = some type) :
      Finding (.cast expr) {
        location := some position
        template := "Static cast to %0.  %1."
        args := [.type expr.destination.referee, .text type.remediation] }

/-! ## The matchers -/

theorem isInteger_spelling (types : TypeTable) (type : AmbiguousType) (quals : Quals) :
    types.isInteger (.base .builtin type.spelling quals) = true := by
  cases type <;> rfl

-- The matchers let every classified type through: an ambiguous type is an integer in every
-- table, and the one reference that the classification looks through is looked through by them too.
theorem integerOrReference_accepts (types : TypeTable) {ty : QualType}
    (h : (classify? ty).isSome) : integerOrReference.accepts types ty = true := by
  obtain ⟨type, htype⟩ := Option.isSome_iff_exists.mp h
  obtain ⟨quals, hreferee⟩ := classify?_eq_some_iff.mp htype
  have hinteger := isInteger_spelling types type quals
  unfold QualType.referee at hreferee
  split at hreferee <;> subst hreferee <;>
    simp [integerOrReference, TypeMatcher.anyOf, TypeMatcher.accepts, hinteger]

/-! ## The reports -/

/-- What the rule reports on an entity once it has been matched. -/
def report? (unit : CompilationUnit) : Entity → Option Diagnostic
  | .value decl => checkValue unit decl
  | .function decl => checkFunction decl
  | .cast expr => checkCast expr

theorem report?_eq_some_iff (unit : CompilationUnit) (entity : Entity) (d : Diagnostic) :
    report? unit entity = some d ↔ Flagged unit.contexts entity ∧ Finding entity d := by
  constructor
  · intro h
    cases entity with
    | value decl =>
      simp only [report?, checkValue] at h
      split at h <;> try contradiction
      rename_i position type hlocation htype
      split at h <;> try contradiction
      rename_i hcontext
      rw [isImplicitInstantiation_iff] at hcontext
      cases h
      exact ⟨⟨by simp [hlocation], by simp [htype], hcontext⟩, .value hlocation htype⟩
    | function decl =>
      simp only [report?, checkFunction] at h
      split at h <;> try contradiction
      rename_i position type hlocation htype
      cases h
      exact ⟨⟨by simp [hlocation], by simp [htype]⟩, .function hlocation htype⟩
    | cast expr =>
      simp only [report?, checkCast] at h
      split at h <;> try contradiction
      rename_i position type hlocation htype
      cases h
      exact ⟨⟨by simp [hlocation], by simp [htype]⟩, .cast hlocation htype⟩
  · rintro ⟨hflagged, hfinding⟩
    cases hfinding with
    | value hlocation htype =>
      have hcontext := hflagged.2.2
      rw [← isImplicitInstantiation_iff] at hcontext
      simp [report?, checkValue, hlocation, htype, hcontext]
    | function hlocation htype => simp [report?, checkFunction, hlocation, htype]
    | cast hlocation htype => simp [report?, checkCast, hlocation, htype]

-- A flagged entity is reported, so that the other direction is never empty.
theorem exists_finding_of_flagged {contexts : Array DeclContext} {entity : Entity}
    (h : Flagged contexts entity) : ∃ d, Finding entity d := by
  cases entity with
  | value decl =>
    obtain ⟨position, hlocation⟩ := Option.isSome_iff_exists.mp h.1
    obtain ⟨type, htype⟩ := Option.isSome_iff_exists.mp h.2.1
    exact ⟨_, .value hlocation htype⟩
  | function decl =>
    obtain ⟨position, hlocation⟩ := Option.isSome_iff_exists.mp h.1
    obtain ⟨type, htype⟩ := Option.isSome_iff_exists.mp h.2
    exact ⟨_, .function hlocation htype⟩
  | cast expr =>
    obtain ⟨position, hlocation⟩ := Option.isSome_iff_exists.mp h.1
    obtain ⟨type, htype⟩ := Option.isSome_iff_exists.mp h.2
    exact ⟨_, .cast hlocation htype⟩

theorem report?_eq_none_of_not_flagged {unit : CompilationUnit} {entity : Entity}
    (h : ¬ Flagged unit.contexts entity) : report? unit entity = none := by
  cases hreport : report? unit entity with
  | none => rfl
  | some d => exact absurd ((report?_eq_some_iff unit entity d).mp hreport).1 h

/-- The type that the matchers look at. -/
def matchedType : Entity → QualType
  | .value decl => decl.ty
  | .function decl => decl.returnType
  | .cast expr => expr.destination

/-- The name under which the rule sees an entity. -/
def boundId : Entity → String
  | .value _ => declId
  | .function _ => returnId
  | .cast _ => castId

theorem matchesOf_matchers (types : TypeTable) (entity : Entity) :
    matchesOf types matchers entity =
      if integerOrReference.accepts types (matchedType entity) then [⟨boundId entity, entity⟩]
      else [] := by
  cases entity with
  | value decl =>
    cases h : integerOrReference.accepts types decl.ty <;>
      simp [matchesOf, matchers, EntityMatcher.accepts, matchedType, boundId, h]
  | function decl =>
    cases h : integerOrReference.accepts types decl.returnType <;>
      simp [matchesOf, matchers, EntityMatcher.accepts, matchedType, boundId, h]
  | cast expr =>
    cases h : integerOrReference.accepts types expr.destination <;>
      simp [matchesOf, matchers, EntityMatcher.accepts, matchedType, boundId, h]

theorem check_bound (unit : CompilationUnit) (entity : Entity) :
    check unit ⟨boundId entity, entity⟩ = (report? unit entity).toList := by
  cases entity <;> rfl

theorem report?_eq_none_of_not_classified (unit : CompilationUnit) {entity : Entity}
    (h : ¬ (classify? (matchedType entity)).isSome) : report? unit entity = none := by
  apply report?_eq_none_of_not_flagged
  cases entity with
  | value decl => exact fun hflagged => h hflagged.2.1
  | function decl => exact fun hflagged => h hflagged.2
  | cast expr => exact fun hflagged => h hflagged.2

-- Matching an entity and checking the matches reports it at most once, and in every type table
-- the same.
theorem flatMap_check_matchesOf (unit : CompilationUnit) (types : TypeTable) (entity : Entity) :
    (matchesOf types matchers entity).flatMap (check unit) = (report? unit entity).toList := by
  rw [matchesOf_matchers]
  split
  · rw [List.flatMap_singleton, check_bound]
  · rename_i haccepts
    -- An entity that the matchers drop is not classified, so nothing is lost.
    have hclass : ¬ (classify? (matchedType entity)).isSome :=
      fun h => haccepts (integerOrReference_accepts types h)
    rw [report?_eq_none_of_not_classified unit hclass]
    rfl

theorem diagnostics_eq (severity : Severity) (unit : CompilationUnit) (types : TypeTable) :
    (Rule.noLong severity).diagnostics { unit with types } =
      unit.entities.toList.filterMap (report? unit) := by
  unfold Rule.diagnostics CompilationUnit.findMatches
  rw [List.flatMap_assoc, List.filterMap_eq_flatMap_toList]
  congr 1
  funext entity
  exact flatMap_check_matchesOf { unit with types } types entity

-- Reporting a list of entities keeps their order and goes one to one with the flagged ones.
theorem forall₂_finding_filterMap_report? (unit : CompilationUnit) (entities : List Entity) :
    List.Forall₂ Finding (entities.filter (Flagged unit.contexts ·))
      (entities.filterMap (report? unit)) := by
  induction entities with
  | nil => exact .nil
  | cons entity rest ih =>
    by_cases hflagged : Flagged unit.contexts entity
    · obtain ⟨d, hfinding⟩ := exists_finding_of_flagged hflagged
      rw [List.filter_cons_of_pos (by simpa using hflagged),
        List.filterMap_cons_some ((report?_eq_some_iff unit entity d).mpr ⟨hflagged, hfinding⟩)]
      exact .cons hfinding ih
    · rw [List.filter_cons_of_neg (by simpa using hflagged),
        List.filterMap_cons_none (report?_eq_none_of_not_flagged hflagged)]
      exact ih

/-- On every unit the rule reports exactly the flagged entities, in their order and each of them
once. The matchers in front of it lose no classified type, and the type table does not matter. -/
theorem diagnostics_exact (severity : Severity) (unit : CompilationUnit) :
    List.Forall₂ Finding (unit.entities.toList.filter (Flagged unit.contexts ·))
        ((Rule.noLong severity).diagnostics unit) ∧
      (∀ types ty, (classify? ty).isSome → integerOrReference.accepts types ty = true) ∧
      ∀ types, (Rule.noLong severity).diagnostics { unit with types } =
        (Rule.noLong severity).diagnostics unit := by
  have hself : (Rule.noLong severity).diagnostics unit =
      unit.entities.toList.filterMap (report? unit) := diagnostics_eq severity unit unit.types
  refine ⟨?_, fun types ty h => integerOrReference_accepts types h, ?_⟩
  · rw [hself]
    exact forall₂_finding_filterMap_report? unit _
  · intro types
    rw [hself]
    exact diagnostics_eq severity unit types

end NoLong

end WidthCheck
