import WidthCheck.Lowering.Instantiation
import WidthCheck.Proofs.Lowering.Deduction

/-!
# Written and kept parameters of a template

A parameter of a template is written as a type parameter, with or without a name, or as something
else. Deduction works on the parameters that are kept, and a type parameter without a name is not:
the parameters after it move up, and with them the places of their arguments.
-/

namespace WidthCheck

/-- How a parameter of a template is written. -/
inductive WrittenParam where
  | type (name : String)
  | unnamedType
  | value
deriving DecidableEq, Repr

namespace WrittenParam

/-- Whether a place is kept for the parameter. -/
def isKept : WrittenParam → Bool
  | .type _ | .value => true
  | .unnamedType => false

/-- The parameter that is kept for one that is written. -/
def Fits : WrittenParam → Lowering.TemplateParam → Prop
  | .type name, param => param.isType = true ∧ param.name = name
  | .unnamedType, _ => False
  | .value, param => param.isType = false

end WrittenParam

namespace Source

/-- How a node writes a parameter of a template. -/
def writtenParam (src : Source) (node : Node) : WrittenParam :=
  match node.kind with
  | .typeParameterDeclaration | .variadicTypeParameterDeclaration =>
      match node.named.find? (·.kind == .typeIdentifier) with
      | some name => .type (src.text name)
      | none => .unnamedType
  | .optionalTypeParameterDeclaration =>
      match node.field? .name with
      | some name => .type (src.text name)
      | none => .unnamedType
  | _ => .value

/-- The parameters that a template declaration writes. -/
def writtenParams (src : Source) (decl : Node) : List WrittenParam :=
  (((decl.field? .parameters).map Node.named).getD []).map src.writtenParam

end Source

namespace Lowering

/-! ## What is kept -/

variable {written : List WrittenParam} {params : List TemplateParam}

/-- These parameters are kept for the written ones: one for each that has a place, in order. -/
def KeptFor (written : List WrittenParam) (params : List TemplateParam) : Prop :=
  List.Forall₂ WrittenParam.Fits (written.filter (·.isKept)) params

theorem KeptFor.skip (h : KeptFor written params) : KeptFor (.unnamedType :: written) params := h

theorem KeptFor.keep {first : WrittenParam} {param : TemplateParam} (hfits : first.Fits param)
    (h : KeptFor written params) : KeptFor (first :: written) (param :: params) := by
  have hkept : first.isKept = true := by
    cases first with
    | type name | value => rfl
    | unnamedType => exact hfits.elim
  unfold KeptFor
  rw [List.filter_cons_of_pos hkept]
  exact .cons hfits h

-- A parameter is read as one that fits it, or left out.
theorem templateParam_run (below : Walker) (scope : Scope) (node : Node) (s : State) :
    (scope.source.writtenParam node = .unnamedType ∧ (templateParam below scope node s).1 = none) ∨
    ∃ param, (templateParam below scope node s).1 = some param ∧
      (scope.source.writtenParam node).Fits param := by
  unfold Source.writtenParam
  split
  case h_1 hkind | h_2 hkind =>
    simp only [templateParam, hkind]
    cases node.named.find? (·.kind == .typeIdentifier) with
    | none => exact .inl ⟨rfl, rfl⟩
    | some name => exact .inr ⟨_, rfl, rfl, rfl⟩
  case h_3 hkind =>
    simp only [templateParam, hkind]
    cases node.field? .name with
    | none => exact .inl ⟨rfl, rfl⟩
    | some name =>
      cases node.field? .defaultType with
      | none => exact .inr ⟨_, rfl, rfl, rfl⟩
      | some type => exact .inr ⟨_, rfl, rfl, rfl⟩
  case h_4 =>
    have hvalue : templateParam below scope node = pure (some .ofValue) := by
      unfold templateParam
      split <;> first | rfl | contradiction
    rw [hvalue]
    exact .inr ⟨.ofValue, rfl, rfl⟩

theorem mapM_templateParam_run (below : Walker) (scope : Scope) (nodes : List Node) (s : State) :
    KeptFor (nodes.map scope.source.writtenParam)
      ((nodes.mapM (templateParam below scope) s).1.filterMap id) := by
  induction nodes generalizing s with
  | nil => exact .nil
  | cons node nodes ih =>
    have hrest := ih (templateParam below scope node s).2
    have hrun : (List.mapM (templateParam below scope) (node :: nodes) s).1 =
        (templateParam below scope node s).1 ::
          (nodes.mapM (templateParam below scope) (templateParam below scope node s).2).1 := by
      rw [List.mapM_cons]
      rfl
    rw [hrun, List.map_cons]
    rcases templateParam_run below scope node s with ⟨hunnamed, hnone⟩ | ⟨param, hsome, hfits⟩
    · rw [hunnamed, hnone]
      exact hrest.skip
    · rw [hsome]
      exact hrest.keep hfits

/-! ## Places -/

/-- The place that is kept for the parameter at an index: how many of those written before it have
one. -/
def placeOf (written : List WrittenParam) (index : Nat) : Nat :=
  (written.take index).countP (·.isKept)

theorem placeOf_eq_iff {index : Nat} (h : index ≤ written.length) :
    placeOf written index = index ↔ WrittenParam.unnamedType ∉ written.take index := by
  have hlength : (written.take index).length = index := List.length_take_of_le h
  have hkept : ∀ param : WrittenParam, param.isKept = true ↔ .unnamedType ≠ param := by
    intro param
    cases param <;> simp [WrittenParam.isKept]
  calc
    placeOf written index = index
      ↔ (written.take index).countP (·.isKept) = (written.take index).length := by
        rw [placeOf, hlength]
    _ ↔ ∀ param ∈ written.take index, param.isKept = true := List.countP_eq_length
    _ ↔ WrittenParam.unnamedType ∉ written.take index := by
        simp only [hkept]
        exact List.forall_mem_ne

theorem placeOf_mono (written : List WrittenParam) {i j : Nat} (h : i ≤ j) :
    placeOf written i ≤ placeOf written j :=
  (List.take_sublist_take_left h).countP_le

section

variable {first : WrittenParam} {index : Nat}

theorem placeOf_cons_of_isKept (h : first.isKept = true) :
    placeOf (first :: written) (index + 1) = placeOf written index + 1 :=
  List.countP_cons_of_pos h

theorem placeOf_cons_of_not (h : ¬ first.isKept = true) :
    placeOf (first :: written) (index + 1) = placeOf written index :=
  List.countP_cons_of_neg h

end

theorem getElem?_placeOf {index : Nat} {param : WrittenParam}
    (hparam : written[index]? = some param) (hkept : param.isKept = true) :
    (written.filter (·.isKept))[placeOf written index]? = some param := by
  induction written generalizing index with
  | nil => cases hparam
  | cons first rest ih =>
    cases index with
    | zero =>
      obtain rfl := Option.some.inj hparam
      rw [List.filter_cons_of_pos hkept]
      rfl
    | succ index =>
      have hrest := ih hparam
      by_cases hfirst : first.isKept = true
      · rw [List.filter_cons_of_pos hfirst, placeOf_cons_of_isKept hfirst]
        exact hrest
      · rw [List.filter_cons_of_neg hfirst, placeOf_cons_of_not hfirst]
        exact hrest

-- Every place is that of a written parameter.
theorem exists_placeOf {place : Nat} {param : WrittenParam}
    (h : (written.filter (·.isKept))[place]? = some param) :
    ∃ index, written[index]? = some param ∧ placeOf written index = place := by
  induction written generalizing place with
  | nil => cases h
  | cons first rest ih =>
    by_cases hfirst : first.isKept = true
    · rw [List.filter_cons_of_pos hfirst] at h
      cases place with
      | zero => exact ⟨0, h, rfl⟩
      | succ place =>
        obtain ⟨index, hparam, rfl⟩ := ih h
        exact ⟨index + 1, hparam, placeOf_cons_of_isKept hfirst⟩
    · rw [List.filter_cons_of_neg hfirst] at h
      obtain ⟨index, hparam, rfl⟩ := ih h
      exact ⟨index + 1, hparam, placeOf_cons_of_not hfirst⟩

/-! ## Bindings -/

theorem lookup_eq_some_of_forall {bound : Bindings} {name : String} {ty : QualType}
    (hmem : ∃ binding ∈ bound, binding.1 = name)
    (hall : ∀ binding ∈ bound, binding.1 = name → binding.2 = ty) :
    bound.lookup name = some ty := by
  cases hlookup : bound.lookup name with
  | none =>
    obtain ⟨binding, hbinding, rfl⟩ := hmem
    exact absurd (List.lookup_eq_none_iff.mp hlookup binding hbinding) (by simp)
  | some found =>
    obtain ⟨front, back, rfl, -⟩ := List.lookup_eq_some_iff.mp hlookup
    exact congrArg some (hall (name, found) (by simp) rfl)

-- Parameters of one name get one argument, so it does not matter which of them is found.
theorem lookup_zip_of_chosen {bound : Bindings} {args : List QualType}
    (hchosen : List.Forall₂ (fun param arg => chosenArgument bound param = some arg) params args)
    {param : TemplateParam} (hparam : param ∈ params) {ty : QualType}
    (hbound : bound.lookup param.name = some ty) :
    ((params.map (·.name)).zip args).reverse.lookup param.name = some ty := by
  have hzip : (params.map (·.name)).zip args = (params.zip args).map (Prod.map (·.name) id) := by
    rw [List.zip_map_left]
  have hfst : (params.zip args).map Prod.fst = params :=
    List.map_fst_zip (Nat.le_of_eq hchosen.length_eq)
  rw [hzip]
  apply lookup_eq_some_of_forall
  · rw [← hfst] at hparam
    obtain ⟨pair, hpair, rfl⟩ := List.mem_map.mp hparam
    exact ⟨Prod.map (·.name) id pair, List.mem_reverse.mpr (List.mem_map_of_mem hpair), rfl⟩
  · intro binding hbinding hname
    obtain ⟨pair, hpair, rfl⟩ := List.mem_map.mp (List.mem_reverse.mp hbinding)
    have harg : chosenArgument bound pair.1 = some pair.2 := List.forall₂_zip hchosen hpair
    have hsame : pair.1.name = param.name := hname
    rw [chosenArgument, hsame, hbound, Option.some_or] at harg
    exact (Option.some.inj harg).symm

variable {template : FunctionTemplate} {use : TemplateUse} {args : List QualType}

-- Of the type parameters of one name that have written arguments, the last gives the binding.
theorem lookup_bindings_of_deduce (h : deduce template use = some args) {place : Nat}
    {param : TemplateParam} {arg : Option QualType} (hparam : template.params[place]? = some param)
    (htype : param.isType = true) (harg : use.explicit[place]? = some arg)
    (hlast : ∀ (later : Nat) (other : TemplateParam), place < later →
      template.params[later]? = some other → other.isType = true →
      later < use.explicit.length → other.name ≠ param.name)
    (source : Source) (kind : Specialization) (depth : Nat) :
    ∃ ty, arg = some ty ∧
      (patternScope source template args kind depth).bindings.lookup param.name = some ty := by
  rw [deduce_eq] at h
  obtain ⟨bound, hgiven, hchosen⟩ := Option.bind_eq_some_iff.mp h
  obtain ⟨explicit, hexplicit, rfl⟩ := Option.map_eq_some_iff.mp hgiven
  obtain ⟨ty, rfl⟩ := exists_type_of_bindExplicit hexplicit hparam htype harg
  have hbound : (bindCall template.paramTypes use.callArgs explicit).lookup param.name =
      some ty := by
    rw [lookup_bindCall, lookup_bindExplicit hexplicit hparam htype harg hlast, Option.some_or]
  have hmem : param ∈ template.params.filter (·.isType) :=
    List.mem_filter.mpr ⟨List.mem_of_getElem? hparam, htype⟩
  exact ⟨ty, rfl, lookup_zip_of_chosen (forall₂_of_mapM hchosen) hmem hbound⟩

theorem exists_getElem?_of_forall₂ {α β : Type} {R : α → β → Prop} {l : List α} {m : List β}
    (h : List.Forall₂ R l m) {i : Nat} {a : α} (ha : l[i]? = some a) :
    ∃ b, m[i]? = some b ∧ R a b := by
  induction h generalizing i with
  | nil => cases ha
  | cons hab _ ih =>
    cases i with
    | zero =>
      obtain rfl := Option.some.inj ha
      exact ⟨_, rfl, hab⟩
    | succ i => exact ih ha

-- The kept parameter at a place, and which written one it is kept for.
theorem KeptFor.exists_written (h : KeptFor written params) {place : Nat} {param : TemplateParam}
    (hparam : params[place]? = some param) (htype : param.isType = true) :
    ∃ index, written[index]? = some (.type param.name) ∧ placeOf written index = place := by
  obtain ⟨found, hfound, hfits⟩ := exists_getElem?_of_forall₂ (R := flip WrittenParam.Fits)
    (List.Forall₂.flip h) hparam
  obtain ⟨index, hindex, hplace⟩ := exists_placeOf hfound
  cases found with
  | type name =>
    have hname : param.name = name := hfits.2
    exact ⟨index, hname ▸ hindex, hplace⟩
  | unnamedType => exact hfits.elim
  | value =>
    have hvalue : param.isType = false := hfits
    rw [htype] at hvalue
    cases hvalue

/-- A named type parameter is bound to the argument that is written at the place kept for it, if
there is one, unless a later type parameter of the same name has one too. -/
theorem KeptFor.lookup_bindings (hkept : KeptFor written template.params)
    (h : deduce template use = some args) {index : Nat} {name : String} {arg : Option QualType}
    (hname : written[index]? = some (.type name))
    (harg : use.explicit[placeOf written index]? = some arg)
    (hlast : ∀ later, index < later → written[later]? = some (.type name) →
      use.explicit[placeOf written later]? = none)
    (source : Source) (kind : Specialization) (depth : Nat) :
    ∃ ty, arg = some ty ∧
      (patternScope source template args kind depth).bindings.lookup name = some ty := by
  obtain ⟨param, hparam, htype, rfl⟩ :=
    exists_getElem?_of_forall₂ hkept (getElem?_placeOf hname rfl)
  refine lookup_bindings_of_deduce h hparam htype harg ?_ source kind depth
  intro place other hlater hother hother' hlt hsame
  obtain ⟨later, hwritten, rfl⟩ := hkept.exists_written hother hother'
  rw [hsame] at hwritten
  have hindex : index < later := by
    by_contra hle
    have := placeOf_mono written (Nat.not_lt.mp hle)
    omega
  have hnone := hlast later hindex hwritten
  rw [List.getElem?_eq_none_iff] at hnone
  omega

end Lowering

end WidthCheck
