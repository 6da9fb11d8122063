import WidthCheck.CType.Basic

/-!
# Substitution and the builders of types

Substituting arguments for template parameters commutes with every way of putting qualifiers or a
layer on a type. References are where this is not plain: an argument that is a reference collapses
with those around it, and takes no qualifiers. From this follow the laws of substitution: it keeps
references collapsed, does nothing where there is no parameter, leaves none that it binds, and two
substitutions are one.
-/

namespace WidthCheck.QualType

/-! ## Qualifiers -/

@[simp] theorem withQuals_none (t : QualType) : t.withQuals .none = t := by
  cases t with
  | base kind name q => rw [withQuals, Quals.merge_none]
  | layer l inner q => rw [withQuals, Quals.merge_none, ite_self]

theorem withQuals_withQuals (t : QualType) (q r : Quals) :
    (t.withQuals q).withQuals r = t.withQuals (q.merge r) := by
  cases t with
  | base kind name p => simp only [withQuals, Quals.merge_assoc]
  | layer l inner p =>
    cases hl : l.isQualifiable <;> simp [withQuals, hl, Quals.merge_assoc]

-- A type whose outermost layer cannot be qualified stays as it is.
theorem withQuals_of_isReference {t : QualType} (h : t.isReference = true) (q : Quals) :
    t.withQuals q = t := by
  cases t with
  | base kind name p => cases h
  | layer l inner p =>
    cases l with
    | lvalueRef | rvalueRef => rfl
    | pointer | array bound | function => cases h

/-! ## References -/

theorem isReference_rvalueRefTo (t : QualType) : t.rvalueRefTo.isReference = true := by
  unfold rvalueRefTo
  split
  · assumption
  · rfl

theorem rvalueRefTo_of_isReference {t : QualType} (h : t.isReference = true) :
    t.rvalueRefTo = t :=
  if_pos h

theorem referee_of_not_isReference {t : QualType} (h : t.isReference = false) :
    t.referee = t := by
  cases t with
  | base kind name q => rfl
  | layer l inner q =>
    cases l with
    | lvalueRef | rvalueRef => cases h
    | pointer | array bound | function => rfl

-- An lvalue reference wins over an rvalue reference.
theorem lvalueRefTo_rvalueRefTo (t : QualType) : t.rvalueRefTo.lvalueRefTo = t.lvalueRefTo := by
  cases h : t.isReference with
  | true => rw [rvalueRefTo_of_isReference h]
  | false =>
    unfold rvalueRefTo lvalueRefTo
    rw [h, referee_of_not_isReference h]
    rfl

/-! ## Substitution -/

variable (args : String → Option QualType)

theorem substitute_lvalueRef (t : QualType) (q : Quals) :
    (layer .lvalueRef t q).substitute args = (t.substitute args).lvalueRefTo :=
  withQuals_of_isReference rfl q

theorem substitute_rvalueRef (t : QualType) (q : Quals) :
    (layer .rvalueRef t q).substitute args = (t.substitute args).rvalueRefTo :=
  withQuals_of_isReference (isReference_rvalueRefTo _) q

theorem isReference_substitute {t : QualType} (h : t.isReference = true) :
    (t.substitute args).isReference = true := by
  cases t with
  | base kind name q => cases h
  | layer l inner q =>
    cases l with
    | lvalueRef => rw [substitute_lvalueRef]; rfl
    | rvalueRef => rw [substitute_rvalueRef]; exact isReference_rvalueRefTo _
    | pointer | array bound | function => cases h

theorem substitute_withQuals (t : QualType) (q : Quals) :
    (t.withQuals q).substitute args = (t.substitute args).withQuals q := by
  cases t with
  | base kind name p =>
    cases kind with
    | builtin | named => rfl
    | templateParam =>
      change (base .templateParam name (p.merge q)).substitute args = _
      rw [substitute, substitute]
      cases args name with
      | none => rfl
      | some arg => exact (withQuals_withQuals arg p q).symm
  | layer l inner p =>
    cases l with
    | lvalueRef | rvalueRef =>
      rw [withQuals_of_isReference (isReference_substitute args rfl)]
      rfl
    | function => rfl
    | pointer | array bound => exact (withQuals_withQuals _ p q).symm

-- What is referred to may turn out to be a reference itself, which collapses on both sides.
theorem substitute_lvalueRefTo (t : QualType) :
    t.lvalueRefTo.substitute args = (t.substitute args).lvalueRefTo := by
  unfold lvalueRefTo
  rw [substitute_lvalueRef]
  cases t with
  | base kind name q => rfl
  | layer l inner q =>
    cases l with
    | lvalueRef => rw [substitute_lvalueRef]; rfl
    | rvalueRef => rw [substitute_rvalueRef]; exact (lvalueRefTo_rvalueRefTo _).symm
    | pointer | array bound | function => rfl

theorem substitute_rvalueRefTo (t : QualType) :
    t.rvalueRefTo.substitute args = (t.substitute args).rvalueRefTo := by
  cases h : t.isReference with
  | true =>
    rw [rvalueRefTo_of_isReference h, rvalueRefTo_of_isReference (isReference_substitute args h)]
  | false =>
    rw [← substitute_rvalueRef args t .none]
    unfold rvalueRefTo
    rw [h]
    rfl

theorem substitute_pointerTo (t : QualType) :
    t.pointerTo.substitute args = (t.substitute args).pointerTo :=
  withQuals_none _

theorem substitute_arrayOf (t : QualType) (bound : Option String) :
    (t.arrayOf bound).substitute args = (t.substitute args).arrayOf bound :=
  withQuals_none _

theorem substitute_functionReturning (t : QualType) :
    t.functionReturning.substitute args = (t.substitute args).functionReturning :=
  withQuals_none _

theorem substitute_wrap (t : QualType) (l : Layer) :
    (t.wrap l).substitute args = (t.substitute args).wrap l := by
  cases l with
  | pointer => exact substitute_pointerTo args t
  | lvalueRef => exact substitute_lvalueRefTo args t
  | rvalueRef => exact substitute_rvalueRefTo args t
  | array bound => exact substitute_arrayOf args t bound
  | function => exact substitute_functionReturning args t

/-! ## Placeholders -/

theorem isAuto_withQuals (t : QualType) (q : Quals) : (t.withQuals q).isAuto = t.isAuto := by
  cases t with
  | base kind name p => cases kind <;> rfl
  | layer l inner p => cases hl : l.isQualifiable <;> simp [withQuals, hl, isAuto]

theorem isAuto_of_isReference {t : QualType} (h : t.isReference = true) : t.isAuto = false := by
  cases t with
  | base kind name q => cases h
  | layer l inner q => rfl

-- Unless an argument is a placeholder, there are none but those that are written.
theorem isAuto_substitute {args : String → Option QualType}
    (h : ∀ name arg, args name = some arg → arg.isAuto = false) (t : QualType) :
    (t.substitute args).isAuto = t.isAuto := by
  cases t with
  | base kind name q =>
    cases kind with
    | builtin | named => rfl
    | templateParam =>
      unfold substitute
      split
      · rename_i arg harg
        rw [isAuto_withQuals, h name arg harg]
        rfl
      · rfl
  | layer l inner q =>
    cases l with
    | lvalueRef | rvalueRef => exact isAuto_of_isReference (isReference_substitute args rfl)
    | pointer | array bound | function =>
      unfold substitute
      rw [isAuto_withQuals]
      rfl

/-! ## Collapsed references -/

/-- No reference refers to a reference, and references and functions have no qualifiers. -/
def IsCollapsed : QualType → Prop
  | .base _ _ _ => True
  | .layer l inner quals => inner.IsCollapsed ∧
      (l.isReference = true → inner.isReference = false) ∧
      (l.isQualifiable = false → quals = .none)

instance decidableIsCollapsed : DecidablePred IsCollapsed
  | .base _ _ _ => inferInstanceAs (Decidable True)
  | .layer _ inner _ =>
      have := decidableIsCollapsed inner
      inferInstanceAs (Decidable (_ ∧ _ ∧ _))

/-- Every argument has its references collapsed. -/
def AllCollapsed (args : String → Option QualType) : Prop :=
  ∀ name arg, args name = some arg → arg.IsCollapsed

theorem IsCollapsed.withQuals {t : QualType} (h : t.IsCollapsed) (q : Quals) :
    (t.withQuals q).IsCollapsed := by
  cases t with
  | base kind name p => trivial
  | layer l inner p =>
    cases l with
    | pointer | array bound => exact ⟨h.1, h.2.1, fun hl => by cases hl⟩
    | lvalueRef | rvalueRef | function => exact h

theorem IsCollapsed.lvalueRefTo {t : QualType} (h : t.IsCollapsed) :
    t.lvalueRefTo.IsCollapsed := by
  show t.referee.IsCollapsed ∧ _
  by_cases href : t.isReference = true
  · cases t with
    | base kind name q => cases href
    | layer l inner q =>
      cases l with
      | lvalueRef | rvalueRef => exact ⟨h.1, fun _ => h.2.1 rfl, fun _ => rfl⟩
      | pointer | array bound | function => cases href
  · rw [Bool.not_eq_true] at href
    rw [referee_of_not_isReference href]
    exact ⟨h, fun _ => href, fun _ => rfl⟩

theorem IsCollapsed.rvalueRefTo {t : QualType} (h : t.IsCollapsed) :
    t.rvalueRefTo.IsCollapsed := by
  unfold QualType.rvalueRefTo
  by_cases href : t.isReference = true
  · rw [if_pos href]
    exact h
  · rw [if_neg href]
    exact ⟨h, fun _ => Bool.not_eq_true _ ▸ href, fun _ => rfl⟩

theorem IsCollapsed.wrap {t : QualType} (h : t.IsCollapsed) (l : Layer) :
    (t.wrap l).IsCollapsed := by
  cases l with
  | lvalueRef => exact h.lvalueRefTo
  | rvalueRef => exact h.rvalueRefTo
  | pointer | array bound | function => exact ⟨h, (fun hl => by cases hl), fun _ => rfl⟩

theorem IsCollapsed.substitute {t : QualType} (h : t.IsCollapsed) (hargs : AllCollapsed args) :
    (t.substitute args).IsCollapsed := by
  induction t with
  | base kind name q =>
    cases kind with
    | builtin | named => trivial
    | templateParam =>
      rw [QualType.substitute]
      cases harg : args name with
      | none => trivial
      | some arg => exact (hargs name arg harg).withQuals q
  | layer l inner q ih => exact ((ih h.1).wrap l).withQuals q

-- A layer of a collapsed type is one that its builder makes.
theorem IsCollapsed.wrap_withQuals {l : Layer} {inner : QualType} {q : Quals}
    (h : (layer l inner q).IsCollapsed) : (inner.wrap l).withQuals q = layer l inner q := by
  obtain ⟨-, href, hq⟩ := h
  cases l with
  | pointer | array bound =>
    show layer _ inner (Quals.none.merge q) = _
    rw [Quals.none_merge]
  | function =>
    rw [hq rfl]
    rfl
  | lvalueRef =>
    rw [hq rfl, withQuals_none]
    show layer _ inner.referee _ = _
    rw [referee_of_not_isReference (href rfl)]
  | rvalueRef =>
    rw [hq rfl, withQuals_none]
    show (if inner.isReference = true then inner else layer .rvalueRef inner .none) = _
    rw [href rfl]
    rfl

/-! ## Parameters -/

/-- The template parameters that occur in a type. -/
def parameters : QualType → List String
  | .base .templateParam name _ => [name]
  | .base _ _ _ => []
  | .layer _ inner _ => inner.parameters

theorem isDependent_referee (t : QualType) : t.referee.isDependent = t.isDependent := by
  unfold referee
  split <;> rfl

theorem isDependent_withQuals (t : QualType) (q : Quals) :
    (t.withQuals q).isDependent = t.isDependent := by
  cases t with
  | base kind name p => rfl
  | layer l inner p => cases hl : l.isQualifiable <;> simp [withQuals, hl, isDependent]

theorem isDependent_wrap (t : QualType) (l : Layer) : (t.wrap l).isDependent = t.isDependent := by
  cases l with
  | pointer | array bound | function => rfl
  | lvalueRef => exact isDependent_referee t
  | rvalueRef =>
    show t.rvalueRefTo.isDependent = _
    unfold rvalueRefTo
    split <;> rfl

theorem substitute_of_parameters_eq_nil {t : QualType} (h : t.IsCollapsed)
    (hnone : t.parameters = []) : t.substitute args = t := by
  induction t with
  | base kind name q =>
    cases kind with
    | builtin | named => rfl
    | templateParam => cases hnone
  | layer l inner q ih =>
    rw [substitute, ih h.1 hnone]
    exact h.wrap_withQuals

theorem isDependent_substitute_eq_false_iff (t : QualType) :
    (t.substitute args).isDependent = false ↔
      ∀ name ∈ t.parameters, ∃ arg, args name = some arg ∧ arg.isDependent = false := by
  induction t with
  | base kind name q =>
    cases kind with
    | builtin | named => simp [substitute, isDependent, parameters]
    | templateParam =>
      rw [parameters, List.forall_mem_singleton, substitute]
      cases args name with
      | none => simp [isDependent]
      | some arg => simp [isDependent_withQuals]
  | layer l inner q ih =>
    rw [substitute, isDependent_withQuals, isDependent_wrap]
    exact ih

/-! ## Two substitutions -/

/-- The arguments that do at once what `args` and then `next` do: a name that the first bind has its
argument rewritten by the second, any other name is left to the second. -/
def composeArgs (args next : String → Option QualType) (name : String) : Option QualType :=
  match args name with
  | some arg => some (arg.substitute next)
  | none => next name

theorem substitute_substitute (next : String → Option QualType) (t : QualType) :
    (t.substitute args).substitute next = t.substitute (composeArgs args next) := by
  induction t with
  | base kind name q =>
    cases kind with
    | builtin | named => rfl
    | templateParam =>
      rw [substitute, substitute, composeArgs]
      cases args name with
      | none => rfl
      | some arg => exact substitute_withQuals next arg q
  | layer l inner q ih =>
    calc ((inner.substitute args).wrap l |>.withQuals q).substitute next
        = (((inner.substitute args).substitute next).wrap l).withQuals q := by
          rw [substitute_withQuals, substitute_wrap]
      _ = ((inner.substitute (composeArgs args next)).wrap l).withQuals q := by rw [ih]

/-- The laws of substitution, for a type and arguments with collapsed references: the result has
collapsed references; a type without parameters stays as it is; the result is independent exactly if
every parameter that occurs has an independent argument; and a second substitution can be done by
rewriting the arguments of the first. -/
theorem substitute_lawful {t : QualType} (ht : t.IsCollapsed)
    {args : String → Option QualType} (hargs : AllCollapsed args) :
    (t.substitute args).IsCollapsed ∧
    (t.parameters = [] → t.substitute args = t) ∧
    ((t.substitute args).isDependent = false ↔
      ∀ name ∈ t.parameters, ∃ arg, args name = some arg ∧ arg.isDependent = false) ∧
    ∀ next, (t.substitute args).substitute next = t.substitute (composeArgs args next) := by
  refine ⟨ht.substitute args hargs, ?_, ?_, ?_⟩
  · exact substitute_of_parameters_eq_nil args ht
  · exact isDependent_substitute_eq_false_iff args t
  · exact fun next => substitute_substitute args next t

/-- The type `const T &&`. -/
def forwardedConst : QualType := .layer .rvalueRef (.base .templateParam "T" .const) .none

/-- The argument `U &` for `T`. -/
def referenceArgs (name : String) : Option QualType :=
  if name = "T" then some (templateParam "U").lvalueRefTo else none

/-- The argument `long *` for `U`. -/
def pointerArgs (name : String) : Option QualType :=
  if name = "U" then some (builtin "long").pointerTo else none

-- The first pass drops `const` and collapses the references, the second meets a plain `U &`.
theorem forwardedConst_lawful :
    (forwardedConst.substitute referenceArgs).IsCollapsed ∧
      (forwardedConst.substitute referenceArgs).isDependent = true ∧
      forwardedConst.substitute (composeArgs referenceArgs pointerArgs) =
        (builtin "long").pointerTo.lvalueRefTo := by
  have hargs : AllCollapsed referenceArgs := by
    intro name arg h
    obtain ⟨-, harg⟩ := Option.ite_none_right_eq_some.mp h
    rw [← Option.some.inj harg]
    decide
  obtain ⟨hcollapsed, -, hindependent, hcompose⟩ :=
    substitute_lawful (by decide : forwardedConst.IsCollapsed) hargs
  refine ⟨hcollapsed, ?_, (hcompose pointerArgs).symm.trans (by decide)⟩
  rw [← Bool.not_eq_false, hindependent]
  decide

end WidthCheck.QualType
