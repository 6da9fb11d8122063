import WidthCheck.Proofs.Lowering.StoredTypes
import WidthCheck.Proofs.CType.Substitution

/-!
# Arguments that depend on a template parameter

A written argument and an argument of a call bind a type parameter only if they depend on no
template parameter. A default is taken as it is, and in a template inside another one it can name a
parameter of the outer template. Nothing else makes an argument of an instantiation dependent.
-/

namespace WidthCheck

theorem QualType.isDependent_unqualified (ty : QualType) :
    ty.unqualified.isDependent = ty.isDependent := by
  cases ty <;> rfl

namespace Lowering

/-- What a use binds type parameters to, by written arguments and by those of the call. It binds
nothing if a written argument cannot be used. -/
def given? (template : FunctionTemplate) (use : TemplateUse) : Option Bindings :=
  (bindExplicit template.params use.explicit []).map
    (bindCall template.paramTypes use.callArgs)

theorem deduce_eq (template : FunctionTemplate) (use : TemplateUse) :
    deduce template use = (given? template use).bind fun bound =>
      (template.params.filter (·.isType)).mapM (chosenArgument bound) := by
  unfold deduce given?
  cases bindExplicit template.params use.explicit [] <;> rfl

/-! ## What is bound is independent -/

theorem bindExplicit_independent {params : List TemplateParam} {args : List (Option QualType)}
    {bound result : Bindings} (hbound : BindingsTyped (·.isDependent = false) bound)
    (h : bindExplicit params args bound = some result) :
    BindingsTyped (·.isDependent = false) result := by
  fun_induction bindExplicit params args bound with
  | case1 | case3 => cases h
  | case2 param params args bound _ ty hty ih =>
    exact ih (hbound.cons param.name (Bool.not_eq_true _ ▸ hty)) h
  | case4 param params arg args bound _ ih => exact ih hbound h
  | case5 =>
    obtain rfl := Option.some.inj h
    exact hbound

theorem bindCall_independent {patterns : List QualType} {args : List (Option QualType)}
    {bound : Bindings} (hbound : BindingsTyped (·.isDependent = false) bound) :
    BindingsTyped (·.isDependent = false) (bindCall patterns args bound) := by
  fun_induction bindCall patterns args bound with
  | case1 pattern patterns args bound name ty _ _ ih => exact ih hbound
  | case2 pattern patterns args bound name ty _ hfree ih =>
    refine ih (hbound.cons name ?_)
    rw [QualType.isDependent_unqualified, QualType.isDependent_referee]
    simp only [Bool.or_eq_true, not_or] at hfree
    exact Bool.not_eq_true _ ▸ hfree.2
  | case3 pattern patterns arg args bound _ ih => exact ih hbound
  | case4 => exact hbound

theorem given?_independent {template : FunctionTemplate} {use : TemplateUse} {bound : Bindings}
    (h : given? template use = some bound) : BindingsTyped (·.isDependent = false) bound := by
  obtain ⟨written, hwritten, rfl⟩ := Option.map_eq_some_iff.mp h
  refine bindCall_independent (bindExplicit_independent ?_ hwritten)
  exact fun _ hnone => absurd hnone List.not_mem_nil

/-! ## What is chosen -/

/-- A use binds nothing to a type parameter, and the default of the parameter is dependent. -/
def FallsBackOnDependent (bound : Bindings) (param : TemplateParam) : Prop :=
  bound.lookup param.name = none ∧ ∃ ty ∈ param.default, ty.isDependent = true

theorem isDependent_chosenArgument {bound : Bindings}
    (hbound : BindingsTyped (·.isDependent = false) bound) {param : TemplateParam}
    {arg : QualType} (h : chosenArgument bound param = some arg) :
    arg.isDependent = true ↔ FallsBackOnDependent bound param := by
  rcases Option.or_eq_some_iff.mp h with hlookup | ⟨hnone, hdefault⟩
  · have hfree : arg.isDependent = false := hbound.lookup hlookup
    rw [hfree, FallsBackOnDependent, hlookup]
    simp
  · rw [FallsBackOnDependent, hdefault]
    simp [hnone]

theorem forall₂_of_mapM {α β : Type} {f : α → Option β} {l : List α} {results : List β}
    (h : l.mapM f = some results) : List.Forall₂ (fun a b => f a = some b) l results := by
  induction l generalizing results with
  | nil =>
    obtain rfl := Option.some.inj h
    exact .nil
  | cons a l ih =>
    rw [List.mapM_cons] at h
    obtain ⟨b, hb, hrest⟩ := Option.bind_eq_some_iff.mp h
    obtain ⟨rest, hl, hcons⟩ := Option.bind_eq_some_iff.mp hrest
    obtain rfl := Option.some.inj hcons
    exact .cons hb (ih hl)

-- The filters on written and on deduced arguments leave the defaults as the only way in.
theorem isDependent_deduce {template : FunctionTemplate} {use : TemplateUse}
    {args : List QualType} (h : deduce template use = some args) :
    ∃ bound, given? template use = some bound ∧
      List.Forall₂ (fun param arg => arg.isDependent = true ↔ FallsBackOnDependent bound param)
        (template.params.filter (·.isType)) args := by
  rw [deduce_eq] at h
  obtain ⟨bound, hbound, hchosen⟩ := Option.bind_eq_some_iff.mp h
  refine ⟨bound, hbound, (forall₂_of_mapM hchosen).imp fun param arg harg => ?_⟩
  exact isDependent_chosenArgument (given?_independent hbound) harg

/-- The member template `template <class U = T> void m()` of a class template with parameter `T`,
called without arguments. -/
example : deduce
    { name := "m"
      params := [{ name := "U", isType := true, default := some (.templateParam "T") }]
      paramTypes := [], node := default, context := 1, records := ["O"] }
    { name := "m", explicit := [], callArgs := [], kind := .implicitInstantiation, depth := 0 } =
      some [.templateParam "T"] := rfl

/-! ## Whole lowerings -/

/-- Every list of arguments that is instantiated has been deduced for a use. An argument in it
depends on a template parameter exactly if it is the default of its parameter, taken for want of
anything else, and this default is dependent. -/
theorem dependent_argument_iff (source : Source) (root : Node) :
    (∀ pair ∈ (finalState source root).instantiated,
      ∃ a ∈ attempts source root, a.lowered? = some pair) ∧
    ∀ a ∈ attempts source root, ∀ index args, a.pair? = some (index, args) →
      ∃ template bound, a.state.templates[index]? = some template ∧
        given? template a.use = some bound ∧
        List.Forall₂ (fun param arg => arg.isDependent = true ↔ FallsBackOnDependent bound param)
          (template.params.filter (·.isType)) args := by
  refine ⟨fun pair hpair => ?_, fun a _ index args hpair => ?_⟩
  · refine lowered_of_mem_queue (Nat.le_refl _) ?_
    rw [queue_state_end]
    exact hpair
  · obtain ⟨deduced, hdeduced, heq⟩ := Option.map_eq_some_iff.mp hpair
    obtain ⟨rfl, rfl⟩ := Prod.mk.inj heq
    obtain ⟨template, htemplate, hargs⟩ := Option.bind_eq_some_iff.mp hdeduced
    obtain ⟨bound, hbound, hdependent⟩ := isDependent_deduce hargs
    exact ⟨template, bound, htemplate, hbound, hdependent⟩

end Lowering

end WidthCheck
