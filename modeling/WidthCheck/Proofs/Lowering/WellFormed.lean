import WidthCheck.Proofs.Lowering.Invariant
import WidthCheck.Proofs.Rule.Exemption

/-!
# Lowered units are well formed

The contexts of a unit form a tree with the file at its root, in which a context comes after the one
around it. Entities stand in contexts that suit them, and every function opens one of its own. A
walk keeps this as long as it starts in a context that exists; an instantiation starts in the one
that its template has kept.
-/

namespace WidthCheck

/-! ## Well-formed units -/

/-- What holds of the context at an index: the first is the file and stands in no other, all others
open inside one before them, and only functions are specialized. -/
structure DeclContext.WellPlaced (index : Nat) (context : DeclContext) : Prop where
  file : context.kind = .file ↔ index = 0
  outermost : context.parent = none ↔ index = 0
  before : ∀ parent, context.parent = some parent → parent < index
  specialized : context.specialization ≠ .undeclared → context.kind.isFunctionLike = true

/-- An entity may stand in a context: a field in a record, a parameter in a function, and a function
in the context of its own kind and name. -/
def Entity.FitsIn (context : DeclContext) : Entity → Prop
  | .value decl => (decl.kind = .field → context.kind = .record) ∧
      (decl.kind = .parameter → context.kind.isFunctionLike = true)
  | .function decl => context.kind.isFunctionLike = true ∧ context.kind = decl.kind ∧
      context.name = decl.name
  | .cast _ => True

namespace CompilationUnit

/-- A unit whose contexts form a tree, whose entities stand in contexts that exist and suit them,
and whose functions open different ones. -/
structure WellFormed (unit : CompilationUnit) : Prop where
  rooted : 0 < unit.contexts.size
  placed : ∀ index context, unit.context? index = some context → context.WellPlaced index
  fits : ∀ entity ∈ unit.entities, ∃ context, unit.context? entity.context = some context ∧
    entity.FitsIn context
  apart : unit.functions.Pairwise (·.context ≠ ·.context)

variable {unit : CompilationUnit}

theorem lt_size_of_context? {index : Nat} {context : DeclContext}
    (h : unit.context? index = some context) : index < unit.contexts.size :=
  (Array.getElem?_eq_some_iff.mp h).1

theorem context?_addContext (unit : CompilationUnit) (context : DeclContext) (index : Nat) :
    (unit.addContext context).context? index =
      if index = unit.contexts.size then some context else unit.context? index :=
  Array.getElem?_push

theorem functions_addFunction (unit : CompilationUnit) (decl : FunctionDecl) :
    (unit.addEntity (.function decl)).functions = unit.functions ++ [decl] := by
  simp [functions, addEntity]

theorem functions_addEntity {entity : Entity} (h : ∀ decl, entity ≠ .function decl) :
    (unit.addEntity entity).functions = unit.functions := by
  cases entity with
  | function decl => exact absurd rfl (h decl)
  | value decl | cast expr => simp [functions, addEntity]

theorem mem_functions_iff {decl : FunctionDecl} :
    decl ∈ unit.functions ↔ .function decl ∈ unit.entities := by
  unfold functions
  rw [List.mem_filterMap]
  constructor
  · rintro ⟨entity, hentity, heq⟩
    cases entity with
    | function other =>
      obtain rfl := Option.some.inj heq
      exact Array.mem_toList_iff.mp hentity
    | value other | cast other => cases heq
  · intro h
    exact ⟨_, Array.mem_toList_iff.mpr h, rfl⟩

namespace WellFormed

theorem initial : WellFormed {} where
  rooted := by decide
  placed index context h := by
    have hindex : index = 0 := by
      have hlt := lt_size_of_context? h
      change index < 1 at hlt
      omega
    subst hindex
    obtain rfl : DeclContext.file = context := Option.some.inj h
    exact ⟨by decide, by decide, fun _ hparent => (by cases hparent), fun hne => absurd rfl hne⟩
  fits entity h := by cases h with | mk hmem => cases hmem
  apart := .nil

theorem function_lt (h : unit.WellFormed) {decl : FunctionDecl} (hdecl : decl ∈ unit.functions) :
    decl.context < unit.contexts.size := by
  obtain ⟨context, hcontext, -⟩ := h.fits _ (mem_functions_iff.mp hdecl)
  exact lt_size_of_context? hcontext

theorem addContext (h : unit.WellFormed) {context : DeclContext} {parent : Nat}
    (hparent : context.parent = some parent) (hlt : parent < unit.contexts.size)
    (hkind : context.kind ≠ .file)
    (hspecialized : context.specialization ≠ .undeclared → context.kind.isFunctionLike = true) :
    (unit.addContext context).WellFormed where
  rooted := by
    change 0 < (unit.contexts.push context).size
    rw [Array.size_push]
    omega
  placed index other hother := by
    rw [context?_addContext] at hother
    split at hother
    · rename_i hindex
      obtain rfl := Option.some.inj hother
      have hpos := h.rooted
      refine ⟨⟨fun hfile => absurd hfile hkind, fun hzero => by omega⟩,
        ⟨fun hnone => ?_, fun hzero => by omega⟩, fun outer houter => ?_, hspecialized⟩
      · rw [hparent] at hnone
        cases hnone
      · rw [hparent] at houter
        obtain rfl := Option.some.inj houter
        omega
    · exact h.placed index other hother
  fits entity hentity := by
    obtain ⟨old, hold, hfits⟩ := h.fits entity hentity
    have hlt := lt_size_of_context? hold
    refine ⟨old, ?_, hfits⟩
    rw [context?_addContext, if_neg (by omega)]
    exact hold
  apart := h.apart

theorem addEntity (h : unit.WellFormed) {entity : Entity} {context : DeclContext}
    (hcontext : unit.context? entity.context = some context) (hfits : entity.FitsIn context)
    (hapart : ∀ decl, entity = .function decl →
      ∀ other ∈ unit.functions, other.context ≠ decl.context) :
    (unit.addEntity entity).WellFormed where
  rooted := h.rooted
  placed := h.placed
  fits other hother := by
    rcases Array.mem_push.mp hother with hold | rfl
    · exact h.fits other hold
    · exact ⟨context, hcontext, hfits⟩
  apart := by
    cases entity with
    | function decl =>
      rw [functions_addFunction, List.pairwise_append]
      refine ⟨h.apart, List.pairwise_singleton _ _, fun other hother last hlast => ?_⟩
      rw [List.mem_singleton.mp hlast]
      exact hapart decl rfl other hother
    | value decl | cast expr =>
      rw [functions_addEntity (fun _ heq => by cases heq)]
      exact h.apart

-- Parents come before their children, so the way up ends, and only the file has no parent.
theorem onChain_file (h : unit.WellFormed) {index : Nat} (hindex : index < unit.contexts.size) :
    NoLong.OnChain unit.contexts 0 index := by
  induction index using Nat.strongRecOn with
  | ind index ih =>
    have hcontext : unit.context? index = some unit.contexts[index] :=
      Array.getElem?_eq_getElem hindex
    have hplaced := h.placed index _ hcontext
    cases hparent : unit.contexts[index].parent with
    | none =>
      rw [hplaced.outermost.mp hparent]
      exact .self
    | some parent =>
      have hlt := hplaced.before parent hparent
      exact .up hcontext hparent (ih parent hlt (by omega))

end WellFormed

end CompilationUnit

namespace Lowering

/-! ## What a walk keeps -/

/-- A state whose unit is well formed and whose templates stand in contexts that exist. -/
structure State.WellFormed (s : State) : Prop where
  unit : s.unit.WellFormed
  templates : ∀ template ∈ s.templates, template.context < s.unit.contexts.size

/-- The functions that are added open contexts from this index on. -/
def AddsFunctions (first : Nat) (s t : State) : Prop :=
  Appends (fun decl => first ≤ decl.context) s.unit.functions t.unit.functions

variable {P : QualType → Prop} {scope : Scope} {s t u : State}

theorem AddsFunctions.mono {first larger : Nat} (h : AddsFunctions larger s t)
    (hle : first ≤ larger) : AddsFunctions first s t :=
  Appends.mono h fun _ hlarger => Nat.le_trans hle hlarger

theorem State.WellFormed.opened (h : s.WellFormed)
    (hscope : scope.context < s.unit.contexts.size) {kind : ContextKind} (hkind : kind ≠ .file)
    (name : String) (specialization : Specialization)
    (hspecialized : specialization ≠ .undeclared → kind.isFunctionLike = true) :
    (s.opened scope kind name specialization).WellFormed where
  unit := h.unit.addContext rfl hscope hkind hspecialized
  templates template htemplate := by
    have hlt := h.templates template htemplate
    change template.context < (s.unit.contexts.push _).size
    rw [Array.size_push]
    omega

theorem size_opened (s : State) (scope : Scope) (kind : ContextKind) (name : String)
    (specialization : Specialization) :
    (s.opened scope kind name specialization).unit.contexts.size = s.unit.contexts.size + 1 :=
  Array.size_push _

theorem context?_opened (s : State) (scope : Scope) (kind : ContextKind) (name : String)
    (specialization : Specialization) :
    (s.opened scope kind name specialization).unit.context? s.unit.contexts.size =
      some { kind, name, specialization, parent := some scope.context } := by
  unfold State.opened
  rw [CompilationUnit.context?_addContext, if_pos rfl]

-- A context of another kind than a function opens, and a walk goes on inside.
theorem State.WellFormed.inside (h : s.WellFormed) (hscope : scope.context < s.unit.contexts.size)
    {kind : ContextKind} (hkind : kind ≠ .file) (name : String) (frames : List Bindings) :
    State.WellFormed { s.opened scope kind name .undeclared with frames := frames } :=
  have hopened := h.opened hscope hkind name .undeclared fun hne => absurd rfl hne
  ⟨hopened.unit, hopened.templates⟩

theorem inside_lt_size (s : State) (scope : Scope) (kind : ContextKind) (name : String)
    (specialization : Specialization) : (scope.inside s).context <
      (s.opened scope kind name specialization).unit.contexts.size := by
  rw [size_opened]
  exact Nat.lt_succ_self _

theorem State.WellFormed.functionOpened (h : s.WellFormed)
    (hscope : scope.context < s.unit.contexts.size) {decl : FunctionDecl}
    (hcontext : decl.context = s.unit.contexts.size) (hkind : decl.kind.isFunctionLike = true) :
    (s.functionOpened scope decl).WellFormed := by
  have hfile : decl.kind ≠ .file := by
    intro hfile
    rw [hfile] at hkind
    cases hkind
  have hopened := h.opened hscope hfile decl.name s.specialization fun _ => hkind
  have hfound := context?_opened s scope decl.kind decl.name s.specialization
  rw [← hcontext] at hfound
  refine ⟨hopened.unit.addEntity hfound ⟨hkind, rfl, rfl⟩ fun _ heq other hother => ?_,
    hopened.templates⟩
  obtain rfl := Entity.function.inj heq
  have hlt := h.unit.function_lt hother
  omega

theorem Update.wellFormed (h : Update P scope s t) (hscope : scope.context < s.unit.contexts.size)
    (hs : s.WellFormed) : t.WellFormed := by
  obtain ⟨context, hexists⟩ : ∃ context, s.unit.context? scope.context = some context :=
    ⟨_, Array.getElem?_eq_getElem hscope⟩
  have hkindAt : s.kindAt scope.context = context.kind := by
    unfold State.kindAt
    rw [hexists]
  cases h with
  | value decl hcontext _ hfield hparameter =>
    rw [hcontext, hkindAt] at hfield hparameter
    rw [← hcontext] at hexists
    exact ⟨hs.unit.addEntity hexists ⟨hfield, hparameter⟩ fun _ heq => (by cases heq),
      hs.templates⟩
  | cast expr hcontext =>
    rw [← hcontext] at hexists
    exact ⟨hs.unit.addEntity hexists trivial fun _ heq => (by cases heq), hs.templates⟩
  | _ => exact ⟨⟨hs.unit.rooted, hs.unit.placed, hs.unit.fits, hs.unit.apart⟩, hs.templates⟩

theorem Update.addsFunctions (h : Update P scope s t) (first : Nat) : AddsFunctions first s t := by
  have hsame : t.unit.functions = s.unit.functions := by
    cases h <;> simp [CompilationUnit.functions, CompilationUnit.addEntity]
  unfold AddsFunctions
  rw [hsame]
  exact .refl

-- The call operator of a lambda is the function of the lambda's context, which no other function
-- has taken meanwhile.
theorem CallOperator.wellFormed {index : Nat} (h : CallOperator P index s t) {context : DeclContext}
    (hcontext : s.unit.context? index = some context) (hkind : context.kind = .method)
    (hname : context.name = "operator()")
    (hapart : ∀ other ∈ s.unit.functions, other.context ≠ index) (hs : s.WellFormed) :
    t.WellFormed := by
  cases h with
  | unwritten => exact hs
  | written decl hindex hdeclKind hdeclName =>
    rw [← hindex] at hcontext hapart
    refine ⟨hs.unit.addEntity hcontext ⟨?_, ?_, ?_⟩ fun _ heq => ?_, hs.templates⟩
    · rw [hkind]
      rfl
    · rw [hkind, hdeclKind]
    · rw [hname, hdeclName]
    · obtain rfl := Entity.function.inj heq
      exact hapart

theorem CallOperator.addsFunctions {index : Nat} (h : CallOperator P index s t) :
    AddsFunctions index s t := by
  unfold AddsFunctions
  cases h with
  | unwritten => exact .refl
  | written decl hindex =>
    rw [CompilationUnit.functions_addFunction]
    exact .push (Nat.le_of_eq hindex.symm)

theorem Registration.wellFormed {pending : Option (List TemplateParam)}
    (h : Registration P scope pending s t) (hscope : scope.context < s.unit.contexts.size)
    (hs : s.WellFormed) : t.WellFormed := by
  cases h with
  | ordinary => exact hs
  | template template _ hcontext =>
    refine ⟨hs.unit, fun other hother => ?_⟩
    rcases FunctionTemplate.mem_register hother with rfl | hold
    · rw [hcontext]
      exact hscope
    · exact hs.templates other hold

theorem Effect.size_le (h : Effect P scope s t) :
    s.unit.contexts.size ≤ t.unit.contexts.size :=
  h.contexts_prefix.length_le

-- What is opened in a scope is opened inside the context of that scope, so all that is needed of
-- the start is that this context exists.
theorem Effect.wellFormed (h : Effect P scope s t)
    (hscope : scope.context < s.unit.contexts.size) (hs : s.WellFormed) :
    t.WellFormed ∧ AddsFunctions s.unit.contexts.size s t := by
  induction h with
  | refl => exact ⟨hs, .refl⟩
  | trans first second ihFirst ihSecond =>
    obtain ⟨hmiddle, hadded⟩ := ihFirst hscope hs
    obtain ⟨hend, hmore⟩ := ihSecond (Nat.lt_of_lt_of_le hscope first.size_le) hmiddle
    exact ⟨hend, hadded.trans (hmore.mono first.size_le)⟩
  | update h => exact ⟨h.wellFormed hscope hs, h.addsFunctions _⟩
  | block _ ih | specialization _ ih | template _ _ _ ih =>
    obtain ⟨hend, hadded⟩ := ih hscope ⟨hs.unit, hs.templates⟩
    exact ⟨⟨hend.unit, hend.templates⟩, hadded⟩
  | typeParams _ _ ih => exact ih hscope hs
  | @namespaceBody scope s t name body ih =>
    have hsize := size_opened s scope .namespaceBody name .undeclared
    obtain ⟨hend, hadded⟩ := ih (inside_lt_size s scope _ name _)
      (hs.inside hscope (by decide) name s.frames)
    exact ⟨hend, hadded.mono (by omega)⟩
  | @record scope s t name body ih =>
    have hsize := size_opened s scope .record name .undeclared
    obtain ⟨hend, hadded⟩ := ih (inside_lt_size s scope _ name _)
      (hs.inside hscope (by decide) name _)
    exact ⟨⟨hend.unit, hend.templates⟩, hadded.mono (by dsimp only; omega)⟩
  | @lambda scope s t u v result operator body ihResult ihBody =>
    have hsize := size_opened s scope .method "operator()" .undeclared
    obtain ⟨hresult, hadded⟩ := ihResult (inside_lt_size s scope _ _ _)
      (hs.inside hscope (by decide) "operator()" _)
    have hgrown := result.size_le
    dsimp only at hadded hgrown
    rw [hsize] at hadded hgrown
    -- The functions before the lambda are in older contexts, those in its result in newer ones.
    have hapart : ∀ other ∈ t.unit.functions, other.context ≠ s.unit.contexts.size := by
      intro other hother
      obtain ⟨added, heq, hnewer⟩ := hadded
      rw [heq] at hother
      rcases List.mem_append.mp hother with hold | hnew
      · have hlt := hs.unit.function_lt hold
        omega
      · have hle := hnewer other hnew
        omega
    have hoperator := operator.wellFormed
      (result.context?_eq_some (context?_opened s scope .method "operator()" .undeclared))
      rfl rfl hapart hresult
    have hsame := congrArg Array.size operator.contexts_eq
    obtain ⟨hend, hmore⟩ := ihBody (by rw [hsame]; exact hgrown) hoperator
    have hstart : AddsFunctions s.unit.contexts.size s t := hadded.mono (by omega)
    exact ⟨⟨hend.unit, hend.templates⟩,
      hstart.trans (operator.addsFunctions.trans (hmore.mono (by omega)))⟩
  | @function scope s t u v decl hcontext hkind _ params registration body ihParams ihBody =>
    have hsize : (s.functionOpened scope decl).unit.contexts.size = s.unit.contexts.size + 1 :=
      size_opened s scope decl.kind decl.name s.specialization
    obtain ⟨hparams, hadded⟩ := ihParams (inside_lt_size s scope _ _ _)
      (hs.functionOpened hscope hcontext hkind)
    have hgrown : s.unit.contexts.size + 1 ≤ t.unit.contexts.size := hsize ▸ params.size_le
    have hregistered := registration.wellFormed (by omega) hparams
    have hsame := congrArg (fun unit => unit.contexts.size) registration.unit_eq
    obtain ⟨hend, hmore⟩ := ihBody (by rw [hsame]; exact hgrown) hregistered
    have hopened : AddsFunctions s.unit.contexts.size s (s.functionOpened scope decl) := by
      unfold AddsFunctions State.functionOpened
      rw [CompilationUnit.functions_addFunction]
      exact .push (Nat.le_of_eq hcontext.symm)
    have hmiddle : AddsFunctions s.unit.contexts.size s u := by
      unfold AddsFunctions
      rw [registration.unit_eq]
      exact hopened.trans (hadded.mono (by omega))
    exact ⟨⟨hend.unit, hend.templates⟩, hmiddle.trans (hmore.mono (by omega))⟩

/-! ## Whole lowerings -/

theorem sorted_wellFormed (source : Source) (root : Node) : (sorted source root).WellFormed := by
  have hinitial : State.WellFormed {} := ⟨.initial, fun _ htemplate => by cases htemplate⟩
  have hwalked := ((walked_effect source root).wellFormed Nat.zero_lt_one hinitial).1
  exact ⟨hwalked.unit, hwalked.templates⟩

-- An instantiation walks its pattern in the context that the template has kept.
theorem maintains_wellFormed (source : Source) :
    Maintains source State.WellFormed fun _ => True where
  good_of_mem _ _ := trivial
  lowerPattern {s use index template args} hs _ htemplate _ := by
    obtain ⟨t, heffect, hrun⟩ := lowerPattern_effect source template args use.kind use.depth
      { s with instantiated := (index, args) :: s.instantiated }
    have hcontext := hs.templates template (List.mem_of_getElem? htemplate)
    have hend := (heffect.wellFormed hcontext ⟨hs.unit, hs.templates⟩).1
    rw [hrun]
    exact ⟨hend.unit, hend.templates⟩

/-- The unit of every parse tree is well formed, and the way up from each of its contexts ends at
the file. -/
theorem wellFormed_ofTree (source : Source) (root : Node) :
    (CompilationUnit.ofTree source root).WellFormed ∧
      ∀ index < (CompilationUnit.ofTree source root).contexts.size,
        NoLong.OnChain (CompilationUnit.ofTree source root).contexts 0 index := by
  have hunit : (CompilationUnit.ofTree source root).WellFormed :=
    ((maintains_wellFormed source).finalState (sorted_wellFormed source root)).unit
  exact ⟨hunit, fun index hindex => hunit.onChain_file hindex⟩

end Lowering

end WidthCheck
