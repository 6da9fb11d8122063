import Mathlib.Data.List.Nodup
import WidthCheck.Proofs.Lowering.Dependence

/-!
# What is deduced for a use

The argument of a type parameter comes from one of three sources: what is written at its place, the
call, and its default, in this order. The bindings are made in two passes over lists of different
lengths; here every type parameter is looked at by itself.
-/

namespace WidthCheck.Lowering

/-! ## Written arguments -/

/-- A written argument that no type parameter can be bound to. -/
def IsUnusable (arg : Option QualType) : Prop :=
  arg = none ∨ ∃ ty, arg = some ty ∧ ty.isDependent = true

/-- At the place of a type parameter there is a written argument that it cannot be bound to. -/
def HasUnusable (params : List TemplateParam) (args : List (Option QualType)) : Prop :=
  ∃ (i : Nat) (param : TemplateParam) (arg : Option QualType), params[i]? = some param ∧
    param.isType = true ∧ args[i]? = some arg ∧ IsUnusable arg

theorem hasUnusable_cons_iff {param : TemplateParam} {params : List TemplateParam}
    {arg : Option QualType} {args : List (Option QualType)} :
    HasUnusable (param :: params) (arg :: args) ↔
      param.isType = true ∧ IsUnusable arg ∨ HasUnusable params args := by
  constructor
  · rintro ⟨i, found, given, hparam, htype, harg, hunusable⟩
    cases i with
    | zero =>
      obtain rfl := Option.some.inj hparam
      obtain rfl := Option.some.inj harg
      exact .inl ⟨htype, hunusable⟩
    | succ i => exact .inr ⟨i, found, given, hparam, htype, harg, hunusable⟩
  · rintro (⟨htype, hunusable⟩ | ⟨i, found, given, hparam, htype, harg, hunusable⟩)
    · exact ⟨0, param, arg, rfl, htype, rfl, hunusable⟩
    · exact ⟨i + 1, found, given, hparam, htype, harg, hunusable⟩

variable {params : List TemplateParam} {args : List (Option QualType)} {bound result : Bindings}

theorem bindExplicit_eq_none_iff :
    bindExplicit params args bound = none ↔ HasUnusable params args := by
  fun_induction bindExplicit params args bound with
  | case1 param params args bound htype ty hdependent =>
    exact iff_of_true rfl (hasUnusable_cons_iff.mpr (.inl ⟨htype, .inr ⟨ty, rfl, hdependent⟩⟩))
  | case2 param params args bound htype ty hfree ih =>
    have husable : ¬ IsUnusable (some ty) := by simpa [IsUnusable] using hfree
    rw [ih, hasUnusable_cons_iff]
    simp [husable]
  | case3 param params args bound htype =>
    exact iff_of_true rfl (hasUnusable_cons_iff.mpr (.inl ⟨htype, .inl rfl⟩))
  | case4 param params arg args bound hvalue ih =>
    rw [ih, hasUnusable_cons_iff]
    simp [hvalue]
  | case5 params args bound hends =>
    refine iff_of_false (by simp) ?_
    rintro ⟨i, param, arg, hparam, -, harg, -⟩
    cases params with
    | nil => cases hparam
    | cons param params =>
      cases args with
      | nil => cases harg
      | cons arg args => exact hends param params arg args rfl rfl

-- An argument at the place of a type parameter that is bound is a type.
theorem exists_type_of_bindExplicit (h : bindExplicit params args bound = some result) {i : Nat}
    {param : TemplateParam} {arg : Option QualType} (hparam : params[i]? = some param)
    (htype : param.isType = true) (harg : args[i]? = some arg) : ∃ ty, arg = some ty := by
  cases arg with
  | none =>
    have hunusable : HasUnusable params args := ⟨i, param, none, hparam, htype, harg, .inl rfl⟩
    rw [bindExplicit_eq_none_iff.mpr hunusable] at h
    cases h
  | some ty => exact ⟨ty, rfl⟩

-- What is done with the first parameter and the first argument.
theorem bindExplicit_cons {param : TemplateParam} {arg : Option QualType}
    (h : bindExplicit (param :: params) (arg :: args) bound = some result) :
    param.isType = false ∧ bindExplicit params args bound = some result ∨
    param.isType = true ∧ ∃ ty, arg = some ty ∧
      bindExplicit params args ((param.name, ty) :: bound) = some result := by
  unfold bindExplicit at h
  split at h
  · rename_i htype
    split at h
    · split at h
      · cases h
      · exact .inr ⟨htype, _, rfl, h⟩
    · cases h
  · rename_i hvalue
    exact .inl ⟨Bool.eq_false_iff.mpr hvalue, h⟩

theorem lookup_cons_of_ne {name other : String} (h : other ≠ name) (ty : QualType)
    (bound : Bindings) : ((other, ty) :: bound).lookup name = bound.lookup name := by
  rw [List.lookup_cons, beq_false_of_ne h.symm]

-- A name keeps its binding unless a type parameter of this name has an argument.
theorem lookup_bindExplicit_of_ne {name : String}
    (h : bindExplicit params args bound = some result)
    (hne : ∀ (i : Nat) (param : TemplateParam), params[i]? = some param → param.isType = true →
      i < args.length → param.name ≠ name) : result.lookup name = bound.lookup name := by
  induction params generalizing args bound with
  | nil =>
    obtain rfl := Option.some.inj h
    rfl
  | cons param params ih =>
    cases args with
    | nil =>
      obtain rfl := Option.some.inj h
      rfl
    | cons arg args =>
      have hrest : ∀ (i : Nat) (other : TemplateParam), params[i]? = some other →
          other.isType = true → i < args.length → other.name ≠ name :=
        fun i other hother htype hi => hne (i + 1) other hother htype (Nat.succ_lt_succ hi)
      rcases bindExplicit_cons h with ⟨-, htail⟩ | ⟨htype, ty, -, htail⟩
      · exact ih htail hrest
      · rw [ih htail hrest, lookup_cons_of_ne (hne 0 param rfl htype (Nat.zero_lt_succ _))]

-- Of type parameters with one name, the last that has an argument decides.
theorem lookup_bindExplicit {i : Nat} {param : TemplateParam} {arg : Option QualType}
    (h : bindExplicit params args bound = some result) (hparam : params[i]? = some param)
    (htype : param.isType = true) (harg : args[i]? = some arg)
    (hlast : ∀ (j : Nat) (other : TemplateParam), i < j → params[j]? = some other →
      other.isType = true → j < args.length → other.name ≠ param.name) :
    result.lookup param.name = arg := by
  induction params generalizing args bound i with
  | nil => cases hparam
  | cons first params ih =>
    cases args with
    | nil => cases harg
    | cons given args =>
      cases i with
      | zero =>
        obtain rfl := Option.some.inj hparam
        obtain rfl := Option.some.inj harg
        rcases bindExplicit_cons h with ⟨hvalue, -⟩ | ⟨-, ty, rfl, htail⟩
        · rw [htype] at hvalue
          cases hvalue
        · rw [lookup_bindExplicit_of_ne htail fun j other hother hother' hj =>
            hlast (j + 1) other (Nat.zero_lt_succ j) hother hother' (Nat.succ_lt_succ hj)]
          exact List.lookup_cons_self
      | succ i =>
        have hrest : ∀ (j : Nat) (other : TemplateParam), i < j → params[j]? = some other →
            other.isType = true → j < args.length → other.name ≠ param.name :=
          fun j other hj hother hother' hlt =>
            hlast (j + 1) other (Nat.succ_lt_succ hj) hother hother' (Nat.succ_lt_succ hlt)
        rcases bindExplicit_cons h with ⟨-, htail⟩ | ⟨-, ty, -, htail⟩
        · exact ih htail hparam harg hrest
        · exact ih htail hparam harg hrest

/-! ## Arguments of the call -/

/-- Whether a parameter of the function and the argument of the call for it tell what a type
parameter is: the function parameter has that type, however qualified, or a reference to it, and
the argument has a known type that depends on no template parameter. -/
def tells (name : String) (pair : QualType × Option QualType) : Bool :=
  pair.1.referee.unqualified = .templateParam name && pair.2.any (!·.isDependent)

/-- What the first argument of a call that tells it says of a type parameter. -/
def calledArgument? (name : String) (patterns : List QualType) (args : List (Option QualType)) :
    Option QualType :=
  (((patterns.zip args).find? (tells name)).bind Prod.snd).map fun ty => ty.referee.unqualified

theorem deducedParam?_eq_some_iff {pattern : QualType} {name : String} :
    deducedParam? pattern = some name ↔ pattern.referee.unqualified = .templateParam name := by
  unfold deducedParam?
  split
  · rename_i found quals hreferee
    simp [hreferee, QualType.unqualified, QualType.templateParam]
  · rename_i hother
    refine iff_of_false (by simp) fun hname => ?_
    cases hreferee : pattern.referee with
    | base kind found quals =>
      rw [hreferee] at hname
      obtain ⟨rfl, rfl⟩ : kind = .templateParam ∧ found = name := by
        simpa [QualType.unqualified, QualType.templateParam] using hname
      exact hother _ _ hreferee
    | layer layer inner quals =>
      rw [hreferee] at hname
      cases hname

theorem tells_iff {name : String} {pattern ty : QualType} :
    tells name (pattern, some ty) = true ↔
      deducedParam? pattern = some name ∧ ty.isDependent = false := by
  simp [tells, deducedParam?_eq_some_iff]

theorem calledArgument?_cons_of_tells {name : String} {pattern ty : QualType}
    (h : tells name (pattern, some ty) = true) (patterns : List QualType)
    (args : List (Option QualType)) :
    calledArgument? name (pattern :: patterns) (some ty :: args) =
      some ty.referee.unqualified := by
  rw [calledArgument?, List.zip_cons_cons, List.find?_cons_of_pos h]
  rfl

theorem calledArgument?_cons_of_not {name : String} {pattern : QualType} {arg : Option QualType}
    (h : tells name (pattern, arg) = false) (patterns : List QualType)
    (args : List (Option QualType)) :
    calledArgument? name (pattern :: patterns) (arg :: args) =
      calledArgument? name patterns args := by
  rw [calledArgument?, List.zip_cons_cons, List.find?_cons_of_neg (by simp [h])]
  rfl

-- A call adds to a binding nothing, and to a name without one what its first telling argument
-- says.
theorem lookup_bindCall (patterns : List QualType) (args : List (Option QualType))
    (bound : Bindings) (name : String) :
    (bindCall patterns args bound).lookup name =
      (bound.lookup name).or (calledArgument? name patterns args) := by
  fun_induction bindCall patterns args bound with
  | case1 pattern patterns args bound found ty hfound hskip ih =>
    rw [ih]
    cases htells : tells name (pattern, some ty) with
    | false => rw [calledArgument?_cons_of_not htells]
    | true =>
      obtain ⟨hname, hfree⟩ := tells_iff.mp htells
      obtain rfl := Option.some.inj (hfound.symm.trans hname)
      have hbound : (bound.lookup found).isSome = true := by simpa [hfree] using hskip
      obtain ⟨given, hgiven⟩ := Option.isSome_iff_exists.mp hbound
      rw [hgiven, Option.some_or, Option.some_or]
  | case2 pattern patterns args bound found ty hfound hnew ih =>
    rw [ih]
    simp only [Bool.or_eq_true, not_or, Bool.not_eq_true, Option.isSome_eq_false_iff,
      Option.isNone_iff_eq_none] at hnew
    by_cases hname : found = name
    · subst hname
      rw [calledArgument?_cons_of_tells (tells_iff.mpr ⟨hfound, hnew.2⟩), hnew.1,
        List.lookup_cons_self]
      rfl
    · have hnot : tells name (pattern, some ty) = false := by
        rw [Bool.eq_false_iff]
        intro htells
        exact hname (Option.some.inj (hfound.symm.trans (tells_iff.mp htells).1))
      rw [lookup_cons_of_ne hname, calledArgument?_cons_of_not hnot]
  | case3 pattern patterns arg args bound hnone ih =>
    have hnot : tells name (pattern, arg) = false := by
      cases arg with
      | none => simp [tells]
      | some ty =>
        rw [Bool.eq_false_iff]
        intro htells
        exact hnone name ty (tells_iff.mp htells).1 rfl
    rw [ih, calledArgument?_cons_of_not hnot]
  | case4 patterns args bound hends =>
    have hempty : patterns.zip args = [] := by
      cases patterns with
      | nil => rfl
      | cons pattern patterns =>
        cases args with
        | nil => rfl
        | cons arg args => exact absurd rfl (hends pattern patterns arg args rfl)
    rw [calledArgument?, hempty]
    simp

/-! ## The choice for a type parameter -/

/-- The type parameters of a template, each with its place among all parameters. -/
def FunctionTemplate.typePlaces (template : FunctionTemplate) : List (TemplateParam × Nat) :=
  template.params.zipIdx.filter (·.1.isType)

/-- The argument of the type parameter at a place: what is written there, else what the call tells,
else the default. -/
def argumentAt? (template : FunctionTemplate) (use : TemplateUse) (place : TemplateParam × Nat) :
    Option QualType :=
  match use.explicit[place.2]? with
  | some written => written
  | none => (calledArgument? place.1.name template.paramTypes use.callArgs).or place.1.default

variable {template : FunctionTemplate} {use : TemplateUse}

theorem mem_typePlaces_iff {place : TemplateParam × Nat} :
    place ∈ template.typePlaces ↔
      template.params[place.2]? = some place.1 ∧ place.1.isType = true := by
  rw [FunctionTemplate.typePlaces, List.mem_filter, List.mem_zipIdx_iff_getElem?]

theorem map_fst_typePlaces :
    template.typePlaces.map Prod.fst = template.params.filter (·.isType) := by
  have hfilter : (template.params.zipIdx.map Prod.fst).filter (·.isType) =
      template.typePlaces.map Prod.fst := List.filter_map
  rw [← hfilter, List.zipIdx_map_fst]

theorem eq_of_name_eq (hnames : template.typeParams.Nodup) {place other : TemplateParam × Nat}
    (hplace : place ∈ template.typePlaces) (hother : other ∈ template.typePlaces)
    (hname : place.1.name = other.1.name) : place = other := by
  have hnodup : (template.typePlaces.map fun place => place.1.name).Nodup := by
    rw [FunctionTemplate.typeParams, ← map_fst_typePlaces, List.map_map] at hnames
    exact hnames
  exact List.inj_on_of_nodup_map hnodup hplace hother hname

-- With distinct names no other parameter interferes, so both passes can be read off at one place.
theorem chosenArgument_eq (hnames : template.typeParams.Nodup) {written : Bindings}
    (hwritten : bindExplicit template.params use.explicit [] = some written)
    {place : TemplateParam × Nat} (hplace : place ∈ template.typePlaces) :
    chosenArgument (bindCall template.paramTypes use.callArgs written) place.1 =
      argumentAt? template use place := by
  obtain ⟨hparam, htype⟩ := mem_typePlaces_iff.mp hplace
  rw [chosenArgument, lookup_bindCall, argumentAt?]
  cases harg : use.explicit[place.2]? with
  | some arg =>
    obtain ⟨ty, rfl⟩ := exists_type_of_bindExplicit hwritten hparam htype harg
    have hlookup : written.lookup place.1.name = some ty := by
      refine lookup_bindExplicit hwritten hparam htype harg ?_
      intro j other hj hother hother' _ hname
      have hsame := eq_of_name_eq hnames hplace
        (mem_typePlaces_iff.mpr ⟨hother, hother'⟩ : (other, j) ∈ _) hname.symm
      exact absurd (congrArg Prod.snd hsame) (Nat.ne_of_lt hj)
    rw [hlookup, Option.some_or, Option.some_or]
  | none =>
    have hlookup : written.lookup place.1.name = none := by
      rw [lookup_bindExplicit_of_ne hwritten, List.lookup_nil]
      intro j other hother hother' hj hname
      have hsame := eq_of_name_eq hnames hplace
        (mem_typePlaces_iff.mpr ⟨hother, hother'⟩ : (other, j) ∈ _) hname.symm
      have hlength := List.getElem?_eq_none_iff.mp harg
      rw [congrArg Prod.snd hsame] at hlength
      exact absurd hj (Nat.not_lt.mpr hlength)
    rw [hlookup, Option.none_or]

theorem mapM_congr_of_mem {α β : Type} {f g : α → Option β} {l : List α}
    (h : ∀ a ∈ l, f a = g a) : l.mapM f = l.mapM g := by
  induction l with
  | nil => rfl
  | cons a l ih =>
    obtain ⟨ha, hl⟩ := List.forall_mem_cons.mp h
    rw [List.mapM_cons, List.mapM_cons, ha, ih hl]

theorem mapM_eq_none_iff {α β : Type} {f : α → Option β} {l : List α} :
    l.mapM f = none ↔ ∃ a ∈ l, f a = none := by
  induction l with
  | nil => simp
  | cons a l ih =>
    rw [List.mapM_cons]
    cases ha : f a with
    | none => simp [ha]
    | some b =>
      have hrest : (some b >>= fun b => l.mapM f >>= fun bs => pure (b :: bs)) = none ↔
          l.mapM f = none := by
        cases l.mapM f <;> simp
      rw [hrest, ih]
      simp [ha]

-- Without an unusable argument every type parameter is settled by itself.
theorem deduce_eq_mapM (hnames : template.typeParams.Nodup)
    (husable : ¬ HasUnusable template.params use.explicit) :
    deduce template use = template.typePlaces.mapM (argumentAt? template use) := by
  cases hwritten : bindExplicit template.params use.explicit [] with
  | none => exact absurd (bindExplicit_eq_none_iff.mp hwritten) husable
  | some written =>
    rw [deduce_eq, given?, hwritten, Option.map_some, Option.bind_some, ← map_fst_typePlaces,
      List.mapM_map]
    exact mapM_congr_of_mem fun place hplace => chosenArgument_eq hnames hwritten hplace

theorem deduce_of_hasUnusable (h : HasUnusable template.params use.explicit) :
    deduce template use = none := by
  rw [deduce_eq, given?, bindExplicit_eq_none_iff.mpr h]
  rfl

theorem argumentAt?_eq_none_iff (husable : ¬ HasUnusable template.params use.explicit)
    {place : TemplateParam × Nat} (hplace : place ∈ template.typePlaces) :
    argumentAt? template use place = none ↔ use.explicit[place.2]? = none ∧
      calledArgument? place.1.name template.paramTypes use.callArgs = none ∧
      place.1.default = none := by
  rw [argumentAt?]
  cases harg : use.explicit[place.2]? with
  | none => simp
  | some written =>
    obtain ⟨hparam, htype⟩ := mem_typePlaces_iff.mp hplace
    refine iff_of_false (fun hnone => husable ?_) (by simp)
    exact ⟨place.2, place.1, written, hparam, htype, harg, .inl hnone⟩

/-- Nothing is deduced exactly if an argument written at the place of a type parameter is unusable,
or some type parameter has neither a written argument nor one from the call nor a default. Otherwise
there is one argument for each type parameter, in order: the written one, else the one from the
call, else the default. -/
theorem deduce_exact (template : FunctionTemplate) (use : TemplateUse)
    (hnames : template.typeParams.Nodup) :
    (deduce template use = none ↔
      HasUnusable template.params use.explicit ∨
      ∃ place ∈ template.typePlaces, use.explicit[place.2]? = none ∧
        calledArgument? place.1.name template.paramTypes use.callArgs = none ∧
        place.1.default = none) ∧
    ∀ args, deduce template use = some args →
      List.Forall₂ (fun place arg => argumentAt? template use place = some arg)
        template.typePlaces args := by
  by_cases hunusable : HasUnusable template.params use.explicit
  · have hnone : deduce template use = none := deduce_of_hasUnusable hunusable
    refine ⟨iff_of_true hnone (.inl hunusable), fun args hargs => ?_⟩
    rw [hnone] at hargs
    cases hargs
  · rw [deduce_eq_mapM hnames hunusable]
    refine ⟨?_, fun args hargs => forall₂_of_mapM hargs⟩
    rw [mapM_eq_none_iff]
    constructor
    · rintro ⟨place, hplace, hnone⟩
      exact .inr ⟨place, hplace, (argumentAt?_eq_none_iff hunusable hplace).mp hnone⟩
    · rintro (hbad | ⟨place, hplace, hnone⟩)
      · exact absurd hbad hunusable
      · exact ⟨place, hplace, (argumentAt?_eq_none_iff hunusable hplace).mpr hnone⟩

/-- The template `template <class T, int N, class U, class V = bool> void spread(const U &u, T t)`.
-/
def spreadTemplate : FunctionTemplate where
  name := "spread"
  params := [
    { name := "T", isType := true, default := none },
    .ofValue,
    { name := "U", isType := true, default := none },
    { name := "V", isType := true, default := some (.builtin "bool") }]
  paramTypes := [(QualType.base .templateParam "U" { isConst := true }).lvalueRefTo,
    .templateParam "T"]
  node := default
  context := 0
  records := []

/-- The call `spread<long>(n, c)` with `n` of type `const unsigned long &` and `c` of type `char`.
-/
def spreadUse : TemplateUse where
  name := "spread"
  explicit := [some (.builtin "long")]
  callArgs := [some ((QualType.builtin "unsigned long").withQuals { isConst := true }).lvalueRefTo,
    some (.builtin "char")]
  kind := .implicitInstantiation
  depth := 0

theorem spreadTemplate_deduced :
    deduce spreadTemplate spreadUse =
      some [.builtin "long", .builtin "unsigned long", .builtin "bool"] ∧
    List.Forall₂ (fun place arg => argumentAt? spreadTemplate spreadUse place = some arg)
      spreadTemplate.typePlaces [.builtin "long", .builtin "unsigned long", .builtin "bool"] := by
  have hdeduced : deduce spreadTemplate spreadUse =
      some [.builtin "long", .builtin "unsigned long", .builtin "bool"] := by decide
  exact ⟨hdeduced, (deduce_exact spreadTemplate spreadUse (by decide)).2 _ hdeduced⟩

end WidthCheck.Lowering
