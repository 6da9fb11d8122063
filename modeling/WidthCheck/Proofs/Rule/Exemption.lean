import WidthCheck.Proofs.Lowering.Marks
import WidthCheck.Proofs.Rule.NoLong

/-!
# Declarations inside implicit instantiations

`no-long` leaves out a declaration that stands directly in an implicit instantiation. A lambda or a
class in the body of the instantiated function opens a context of its own, which is not marked, and
what stands there is reported like anything else. This says exactly which declarations inside an
instantiation are left out and which are not.
-/

namespace WidthCheck.NoLong

open AmbiguousType Lowering

/-- The rule reports a declaration. -/
def Reported (unit : CompilationUnit) (decl : ValueDecl) : Prop :=
  (matchesOf unit.types matchers (.value decl)).flatMap (check unit) ≠ []

theorem reported_iff (unit : CompilationUnit) (decl : ValueDecl) :
    Reported unit decl ↔ decl.location.isSome ∧ (classify? decl.ty).isSome ∧
      ¬ ImplicitlyInstantiated unit.contexts decl.context := by
  unfold Reported
  rw [flatMap_check_matchesOf]
  constructor
  · intro h
    cases hreport : report? unit (.value decl) with
    | none => exact absurd (by rw [hreport]; rfl) h
    | some d => exact ((report?_eq_some_iff unit (.value decl) d).mp hreport).1
  · intro h
    have hflagged : Flagged unit.contexts (.value decl) := h
    obtain ⟨d, hfinding⟩ := exists_finding_of_flagged hflagged
    rw [(report?_eq_some_iff unit (.value decl) d).mpr ⟨hflagged, hfinding⟩]
    exact List.cons_ne_nil _ _

/-! ## Contexts around a declaration -/

/-- A context is on the chain of another: it is that context or one around it. -/
inductive OnChain (contexts : Array DeclContext) (outer : Nat) : Nat → Prop where
  | self : OnChain contexts outer outer
  | up {index parent : Nat} {context : DeclContext} (hcontext : contexts[index]? = some context)
      (hparent : context.parent = some parent) (rest : OnChain contexts outer parent) :
      OnChain contexts outer index

/-- A context is around another one. -/
def Around (contexts : Array DeclContext) (outer index : Nat) : Prop :=
  ∃ context parent, contexts[index]? = some context ∧ context.parent = some parent ∧
    OnChain contexts outer parent

theorem onChain_iff {contexts : Array DeclContext} {outer index : Nat} :
    OnChain contexts outer index ↔ index = outer ∨ Around contexts outer index := by
  constructor
  · intro h
    cases h with
    | self => exact .inl rfl
    | up hcontext hparent rest => exact .inr ⟨_, _, hcontext, hparent, rest⟩
  · rintro (rfl | ⟨context, parent, hcontext, hparent, rest⟩)
    · exact .self
    · exact .up hcontext hparent rest

theorem reported_onChain_iff (unit : CompilationUnit) (decl : ValueDecl) :
    (Reported unit decl ∧ ∃ outer, OnChain unit.contexts outer decl.context ∧
        ImplicitlyInstantiated unit.contexts outer) ↔
      decl.location.isSome ∧ (classify? decl.ty).isSome ∧
        ¬ ImplicitlyInstantiated unit.contexts decl.context ∧
        ∃ outer, Around unit.contexts outer decl.context ∧
          ImplicitlyInstantiated unit.contexts outer := by
  rw [reported_iff]
  constructor
  · rintro ⟨⟨hlocation, htype, hown⟩, outer, hchain, houter⟩
    refine ⟨hlocation, htype, hown, outer, ?_, houter⟩
    rcases onChain_iff.mp hchain with rfl | haround
    · exact absurd houter hown
    · exact haround
  · rintro ⟨hlocation, htype, hown, outer, haround, houter⟩
    exact ⟨⟨hlocation, htype, hown⟩, outer, onChain_iff.mpr (.inr haround), houter⟩

/-! ## Lowered units -/

variable {source : Source} {root : Node}

theorem isMarked_of_implicitlyInstantiated {index : Nat}
    (h : ImplicitlyInstantiated (CompilationUnit.ofTree source root).contexts index) :
    (finalState source root).IsMarked index := by
  obtain ⟨context, hcontext, -, hspecialization⟩ := h
  unfold CompilationUnit.ofTree at hcontext
  exact ⟨context, hcontext, by rw [hspecialization]; rfl⟩

theorem walked_not_implicitlyInstantiated {index : Nat}
    (h : index < (walked source root).unit.contexts.size) :
    ¬ ImplicitlyInstantiated (CompilationUnit.ofTree source root).contexts index := by
  intro himplicit
  exact walked_not_isMarked source root index (isMarked_of_extends
    (walked_prefix_finalState source root) h (isMarked_of_implicitlyInstantiated himplicit))

theorem eq_of_implicitlyInstantiated {a : Attempt} (ha : a ∈ attempts source root) {i j : Nat}
    (hi : a.Opens source i) (hj : a.Opens source j)
    (hfirst : ImplicitlyInstantiated (CompilationUnit.ofTree source root).contexts i)
    (hsecond : ImplicitlyInstantiated (CompilationUnit.ofTree source root).contexts j) :
    i = j := by
  have hextends := contexts_prefix_finalState ha
  have hmi := isMarked_of_extends hextends hi.2 (isMarked_of_implicitlyInstantiated hfirst)
  have hmj := isMarked_of_extends hextends hj.2 (isMarked_of_implicitlyInstantiated hsecond)
  exact a.eq_of_isMarked source hi hj hmi hmj

/-- A declaration inside an implicit instantiation is reported exactly when it has a place and an
ambiguous type and its own context is not an implicit instantiation. The walk opens no such context,
and each attempt at most one: of the declarations in the contexts it opens, only those directly in
that one are left out. -/
theorem reported_inside_instantiation (source : Source) (root : Node) :
    (∀ decl ∈ (CompilationUnit.ofTree source root).values,
      (Reported (CompilationUnit.ofTree source root) decl ∧
        ∃ outer, OnChain (CompilationUnit.ofTree source root).contexts outer decl.context ∧
          ImplicitlyInstantiated (CompilationUnit.ofTree source root).contexts outer) ↔
      decl.location.isSome ∧ (classify? decl.ty).isSome ∧
        ¬ ImplicitlyInstantiated (CompilationUnit.ofTree source root).contexts decl.context ∧
        ∃ outer, Around (CompilationUnit.ofTree source root).contexts outer decl.context ∧
          ImplicitlyInstantiated (CompilationUnit.ofTree source root).contexts outer) ∧
    (∀ index < (walked source root).unit.contexts.size,
      ¬ ImplicitlyInstantiated (CompilationUnit.ofTree source root).contexts index) ∧
    ∀ a ∈ attempts source root, ∀ outer, a.Opens source outer →
      ImplicitlyInstantiated (CompilationUnit.ofTree source root).contexts outer →
      ∀ decl ∈ (CompilationUnit.ofTree source root).values, a.Opens source decl.context →
        (Reported (CompilationUnit.ofTree source root) decl ↔
          decl.location.isSome ∧ (classify? decl.ty).isSome ∧ decl.context ≠ outer) := by
  refine ⟨fun decl _ => reported_onChain_iff _ decl,
    fun index h => walked_not_implicitlyInstantiated h, ?_⟩
  intro a ha outer houter himplicit decl _ hdecl
  have hown : ¬ ImplicitlyInstantiated (CompilationUnit.ofTree source root).contexts decl.context ↔
      decl.context ≠ outer := by
    refine not_congr ⟨fun h => ?_, fun h => ?_⟩
    · exact eq_of_implicitlyInstantiated ha hdecl houter h himplicit
    · rw [h]
      exact himplicit
  rw [reported_iff, hown]

end WidthCheck.NoLong
