import WidthCheck.Proofs.Lowering.Effect

/-!
# Steps that have an effect

`Acts` says of a step of lowering that it has an effect in a scope and what is known of its result.
The rules below follow the way steps are put together: sequences, loops, blocks and the primitive
steps.
-/

namespace WidthCheck.Lowering

variable {P : QualType → Prop} {scope : Scope} {pre : State → Prop} {α β : Type}

/-- From every state with `pre` the step has an effect in `scope`, and `post` holds of its
result. -/
def Acts (P : QualType → Prop) (scope : Scope) (pre : State → Prop) (step : Lowering α)
    (post : α → Prop) : Prop :=
  ∀ s, pre s → Effect P scope s (step s).2 ∧ post (step s).1

/-- A condition that no effect in the scope breaks. -/
def Stable (P : QualType → Prop) (scope : Scope) (pre : State → Prop) : Prop :=
  ∀ s t, Effect P scope s t → pre s → pre t

/-- The types that a step can look up, those bound in the scope and those of the names in scope,
are such that the predicate holds. -/
structure Ready (P : QualType → Prop) (scope : Scope) (s : State) : Prop where
  bindings : ∀ binding ∈ scope.bindings, P binding.2
  frames : FramesTyped P s.frames

theorem Ready.stable : Stable P scope (Ready P scope) :=
  fun _ _ heffect hs => ⟨hs.bindings, heffect.framesTyped hs.frames⟩

/-- Visiting a node has an effect in the scope it is visited in. -/
def VisitActs (P : QualType → Prop) (visit : Scope → Node → Lowering Unit) : Prop :=
  ∀ scope node, Acts P scope (Ready P scope) (visit scope node) fun _ => True

/-- A declaration of this kind may stand in the context of the scope. -/
structure Suits (kind : ValueKind) (scope : Scope) (s : State) : Prop where
  field : kind = .field → s.kindAt scope.context = .record
  parameter : kind = .parameter → (s.kindAt scope.context).isFunctionLike = true

theorem Suits.stable {kind : ValueKind} : Stable P scope (Suits kind scope) := by
  intro s t heffect hs
  refine ⟨fun hkind => ?_, fun hkind => ?_⟩
  · have hrecord := hs.field hkind
    rw [heffect.kindAt_eq (by rw [hrecord]; decide), hrecord]
  · have hfunction := hs.parameter hkind
    rw [heffect.kindAt_eq (fun hfile => by rw [hfile] at hfunction; cases hfunction)]
    exact hfunction

/-- What declaring values of a kind in a scope needs. -/
structure Hosts (P : QualType → Prop) (kind : ValueKind) (scope : Scope) (s : State) : Prop
    extends Ready P scope s, Suits kind scope s

theorem Hosts.stable {kind : ValueKind} : Stable P scope (Hosts P kind scope) :=
  fun s t heffect hs =>
    ⟨Ready.stable s t heffect hs.toReady, Suits.stable s t heffect hs.toSuits⟩

/-! ## Putting steps together -/

namespace Acts

theorem pure {post : α → Prop} {a : α} (h : post a) :
    Acts P scope pre (Pure.pure a : Lowering α) post :=
  fun _ _ => ⟨.refl, h⟩

theorem result {post : α → Prop} {a : α} (h : ∀ s, pre s → post a) :
    Acts P scope pre (Pure.pure a : Lowering α) post :=
  fun s hs => ⟨.refl, h s hs⟩

theorem bind {p : α → Prop} {q : β → Prop} {x : Lowering α} {f : α → Lowering β}
    (hpre : Stable P scope pre) (hx : Acts P scope pre x p)
    (hf : ∀ a, p a → Acts P scope pre (f a) q) : Acts P scope pre (x >>= f) q := by
  intro s hs
  obtain ⟨hfirst, ha⟩ := hx s hs
  obtain ⟨hsecond, hb⟩ := hf _ ha _ (hpre _ _ hfirst hs)
  exact ⟨hfirst.trans hsecond, hb⟩

theorem mono {p q : α → Prop} {x : Lowering α} (hx : Acts P scope pre x p)
    (h : ∀ a, p a → q a) : Acts P scope pre x q :=
  fun s hs => ⟨(hx s hs).1, h _ (hx s hs).2⟩

theorem weaken {weaker : State → Prop} {p : α → Prop} {x : Lowering α}
    (hx : Acts P scope weaker x p) (h : ∀ s, pre s → weaker s) : Acts P scope pre x p :=
  fun s hs => hx s (h s hs)

theorem forM {f : α → Lowering Unit} (hpre : Stable P scope pre) (l : List α)
    (hf : ∀ a ∈ l, Acts P scope pre (f a) fun _ => True) :
    Acts P scope pre (l.forM f) fun _ => True := by
  induction l with
  | nil => exact pure trivial
  | cons a rest ih =>
    change Acts P scope pre (f a >>= fun _ => rest.forM f) fun _ => True
    exact bind hpre (hf a List.mem_cons_self) fun _ _ =>
      ih fun b hb => hf b (List.mem_cons_of_mem a hb)

theorem mapM {f : α → Lowering β} {p : β → Prop} (hpre : Stable P scope pre) (l : List α)
    (hf : ∀ a ∈ l, Acts P scope pre (f a) p) :
    Acts P scope pre (l.mapM f) fun results => ∀ b ∈ results, p b := by
  induction l with
  | nil => exact pure (by simp)
  | cons a rest ih =>
    rw [List.mapM_cons]
    refine bind hpre (hf a List.mem_cons_self) fun b hb => ?_
    refine bind hpre (ih fun c hc => hf c (List.mem_cons_of_mem a hc)) fun bs hbs => ?_
    apply pure
    intro c hc
    rcases List.mem_cons.mp hc with rfl | hrest
    · exact hb
    · exact hbs c hrest

end Acts

theorem Ready.push {s : State} (h : Ready P scope s) :
    Ready P scope { s with frames := [] :: s.frames } :=
  ⟨h.bindings, h.frames.push⟩

theorem Acts.withFrame {p : α → Prop} {x : Lowering α} (hx : Acts P scope (Ready P scope) x p) :
    Acts P scope (Ready P scope) (withFrame x) p := by
  intro s hs
  obtain ⟨hbody, ha⟩ := hx _ hs.push
  exact ⟨hbody.block, ha⟩

/-! ## The primitive steps -/

theorem bind_run {σ : Type} (x : StateM σ α) (f : α → StateM σ β) (s : σ) :
    (x >>= f) s = f (x s).1 (x s).2 := rfl

theorem noteTooDeep_acts (node : Node) :
    Acts P scope pre (noteTooDeep scope node) fun _ => True :=
  fun _ _ => ⟨.update (.tooDeep _), trivial⟩

theorem addAlias_acts (name : String) {target : QualType} (h : P target) :
    Acts P scope pre (addAlias name target) fun _ => True :=
  fun _ _ => ⟨.update (.alias name target h), trivial⟩

theorem addEnum_acts (name : String) (isScoped : Bool) :
    Acts P scope pre (addEnum name isScoped) fun _ => True :=
  fun _ _ => ⟨.update (.enum name isScoped), trivial⟩

theorem addRecord_acts (name : String) : Acts P scope pre (addRecord name) fun _ => True :=
  fun _ _ => ⟨.update (.knownRecord name), trivial⟩

theorem addCast_acts (expr : StaticCast) (hcontext : expr.context = scope.context)
    (htype : P expr.destination) :
    Acts P scope pre (addEntity (.cast expr)) fun _ => True :=
  fun _ _ => ⟨.update (.cast expr hcontext htype), trivial⟩

theorem addUse_acts (use : TemplateUse) (hdepth : use.depth = scope.depth)
    (hkind : use.kind.isInstantiation = true)
    (hexplicit : ∀ ty, some ty ∈ use.explicit → P ty)
    (hargs : ∀ ty, some ty ∈ use.callArgs → P ty) :
    Acts P scope pre (addUse use) fun _ => True :=
  fun _ _ => ⟨.update (.use use hdepth hkind hexplicit hargs), trivial⟩

theorem declareName_run (name : String) (ty : QualType) (s : State) :
    declareName name ty s = ((), { s with frames := s.frames.modifyHead ((name, ty) :: ·) }) := by
  change ((), { s with frames := _ }) = ((), { s with frames := _ })
  cases s.frames <;> rfl

theorem declareName_acts (name : String) {ty : QualType} (h : P ty) :
    Acts P scope pre (declareName name ty) fun _ => True := by
  intro s _
  rw [declareName_run]
  exact ⟨.update (.name name ty h), trivial⟩

theorem lookupName_acts (name : String) :
    Acts P scope (Ready P scope) (lookupName name) fun result => ∀ ty ∈ result, P ty := by
  intro s hs
  refine ⟨.refl, fun ty hty => ?_⟩
  obtain ⟨frame, hframe, hlookup⟩ := List.exists_of_findSome?_eq_some hty
  obtain ⟨front, back, hbindings, -⟩ := List.lookup_eq_some_iff.mp hlookup
  exact hs.frames frame hframe (name, ty) (by simp [hbindings])

-- Declaring a value needs a context that suits it.
theorem declare_acts (name : String) (kind : ValueKind) {ty : QualType}
    (location : Option Position) (hpre : Stable P scope pre) (h : P ty)
    (hsuits : ∀ s, pre s → Suits kind scope s) :
    Acts P scope pre (declare scope name kind ty location) fun _ => True := by
  have hvalue : Acts P scope pre
      (addEntity (.value { name, kind, ty, location, context := scope.context }))
      fun _ => True :=
    fun s hs => ⟨.update (.value _ rfl h (hsuits s hs).field (hsuits s hs).parameter), trivial⟩
  unfold declare
  by_cases hname : name ≠ ""
  · rw [if_pos hname]
    exact .bind hpre (declareName_acts name h) fun _ _ => hvalue
  · rw [if_neg hname]
    exact hvalue

end WidthCheck.Lowering
