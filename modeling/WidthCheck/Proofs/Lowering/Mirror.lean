import WidthCheck.Lowering.Traversal.Walk
import WidthCheck.Proofs.Lowering.Restores
import WidthCheck.Proofs.Lowering.SourcePair
import WidthCheck.Proofs.Lowering.TemplateParameters

/-!
# Traversals mirror the walk

A traversal and the walk that is handed its scope are run side by side. `Mirrors` says of a step of
the one and a step of the other that they give the same result and build the same state, and from
where to where the fields of the traversal are moved that hold for a part of the tree. A visitor
that puts back what it has set ends where it began.

The two need not read one source: they may read the two sources of a pair. And the traversal can be
watched for what its templates come from.
-/

namespace WidthCheck.Lowering

/-- The scope with another source. -/
def Scope.reading (scope : Scope) (source : Source) : Scope := { scope with source }

@[simp] theorem Scope.reading_source (scope : Scope) (source : Source) :
    (scope.reading source).source = source := rfl

/-! ## Where a traversal stands -/

/-- What is to be read, and what is known of the parameters of templates: they come from the
template declarations around the node at which they wait for a function. -/
structure Origins where
  pair : SourcePair
  Holds : Node → List TemplateParam → Prop
  within : ∀ {n : Node} {params : List TemplateParam}, Holds n params → pair.Within n
  below : ∀ {n c : Node} {params : List TemplateParam}, Holds n params → c ∈ n.children →
    Holds c params
  written : ∀ {n : Node} {params : List TemplateParam}, pair.Within n →
    n.kind = .templateDeclaration → KeptFor (pair.right.writtenParams n) params → Holds n params

/-- Nothing is known of templates but that their functions are among the nodes of the pair. -/
def Origins.ofPair (pair : SourcePair) : Origins where
  pair
  Holds n _ := pair.Within n
  within h := h
  below h hc := pair.child h hc
  written h _ _ := h

/-- Where a traversal stands in the tree. -/
structure Stand where
  scope : Scope
  /-- The number of blocks around the innermost one. -/
  outer : Nat
  /-- The template parameters that may be waiting for a function. -/
  pending : Option (List TemplateParam)

namespace Stand

/-- The stand inside a context. -/
def inContext (p : Stand) (context : Nat) : Stand := { p with scope := { p.scope with context } }

/-- The stand inside a record. -/
def inRecord (p : Stand) (name : String) : Stand :=
  { p with scope := { p.scope with records := name :: p.scope.records } }

/-- The stand inside a template with these type parameters. -/
def inTemplate (p : Stand) (names : List String) : Stand :=
  { p with scope := { p.scope with typeParams := names :: p.scope.typeParams } }

/-- The stand inside a block. -/
def inBlock (p : Stand) : Stand := { p with outer := p.outer + 1 }

/-- The stand at which these parameters wait for a function. -/
def awaiting (p : Stand) (pending : Option (List TemplateParam)) : Stand := { p with pending }

end Stand

/-- The nodes to which the parameters that may be waiting belong. -/
abbrev Origins.at (K : Origins) (pending : Option (List TemplateParam)) : SourcePair :=
  K.pair.restrict (fun n => ∀ params ∈ pending, K.Holds n params)
    fun hn hc params hparams => K.below (hn params hparams) hc

/-- The scope that the walk is handed where a traversal stands. -/
abbrev Origins.view (K : Origins) (p : Stand) : Scope := p.scope.reading K.pair.right

/-- The traversal keeps to the limit of nesting, and has given the warning about it once if it has
met the limit. -/
structure Traversal.Bounded (t : Traversal) : Prop where
  nesting_le : t.nesting ≤ nestingLimit
  deepest_le : t.deepest ≤ nestingLimit
  warnings_eq : t.warnings.length = t.nestingExceeded.toNat

/-- The traversal stands here, with this many levels entered. -/
structure Origins.Stands (K : Origins) (nesting : Nat) (p : Stand) (t : Traversal) : Prop
    extends t.Bounded where
  nesting_eq : t.nesting = nesting
  scope_eq : t.scope = p.scope.reading K.pair.left
  height_eq : t.frames.length = p.outer + 1
  pending_eq : t.pendingTemplate = p.pending ∨ t.pendingTemplate = none
  templates : ∀ template ∈ t.templates, K.Holds template.node template.params

variable {α β : Type}

/-- From every traversal that stands at `p`, the step gives the same result as the step of the walk
and builds the same state, and the traversal then stands at `q`. -/
def Origins.Mirrors (K : Origins) (nesting : Nat) (p q : Stand) (step : Traverse α)
    (walk : Lowering α) (post : α → Prop) : Prop :=
  ∀ t, K.Stands nesting p t →
    (step t).1 = (walk t.state).1 ∧ (step t).2.state = (walk t.state).2 ∧
      K.Stands nesting q (step t).2 ∧ post (step t).1

variable {K : Origins} {nesting : Nat} {p q r : Stand}

/-! ## Putting steps together -/

namespace Origins.Mirrors

variable {step : Traverse α} {walk : Lowering α} {post : α → Prop}

theorem pure {a : α} (h : post a) : K.Mirrors nesting p p (Pure.pure a) (Pure.pure a) post :=
  fun _ ht => ⟨rfl, rfl, ht, h⟩

theorem bind {after : β → Prop} {f : α → Traverse β} {g : α → Lowering β}
    (hstep : K.Mirrors nesting p q step walk post)
    (hnext : ∀ a, post a → K.Mirrors nesting q r (f a) (g a) after) :
    K.Mirrors nesting p r (step >>= f) (walk >>= g) after := by
  intro t ht
  obtain ⟨hresult, hstate, hstands, hpost⟩ := hstep t ht
  have hrest := hnext _ hpost _ hstands
  have hwalk : (walk >>= g) t.state = g (step t).1 (step t).2.state := by
    rw [hresult, hstate]
    rfl
  rw [hwalk]
  exact hrest

theorem mono {weaker : α → Prop} (hstep : K.Mirrors nesting p q step walk post)
    (h : ∀ s, post (walk s).1 → weaker (walk s).1) : K.Mirrors nesting p q step walk weaker := by
  intro t ht
  obtain ⟨hresult, hstate, hstands, hpost⟩ := hstep t ht
  rw [hresult] at hpost
  exact ⟨hresult, hstate, hstands, by rw [hresult]; exact h _ hpost⟩

theorem branch {c : Prop} [Decidable c] {step' : Traverse α} {walk' : Lowering α}
    (hpos : c → K.Mirrors nesting p q step walk post)
    (hneg : ¬c → K.Mirrors nesting p q step' walk' post) :
    K.Mirrors nesting p q (if c then step else step') (if c then walk else walk') post := by
  by_cases hc : c
  · rw [if_pos hc, if_pos hc]
    exact hpos hc
  · rw [if_neg hc, if_neg hc]
    exact hneg hc

theorem forM {f : α → Traverse Unit} {g : α → Lowering Unit} (l : List α)
    (h : ∀ a ∈ l, K.Mirrors nesting p p (f a) (g a) fun _ => True) :
    K.Mirrors nesting p p (l.forM f) (l.forM g) fun _ => True := by
  induction l with
  | nil => exact pure trivial
  | cons a rest ih =>
    change K.Mirrors nesting p p (f a >>= fun _ => rest.forM f) (g a >>= fun _ => rest.forM g) _
    exact bind (h a List.mem_cons_self) fun _ _ => ih fun b hb => h b (List.mem_cons_of_mem a hb)

theorem mapM {f : α → Traverse β} {g : α → Lowering β} (l : List α)
    (h : ∀ a ∈ l, K.Mirrors nesting p p (f a) (g a) fun _ => True) :
    K.Mirrors nesting p p (l.mapM f) (l.mapM g) fun _ => True := by
  induction l with
  | nil => exact pure trivial
  | cons a rest ih =>
    rw [List.mapM_cons, List.mapM_cons]
    refine bind (h a List.mem_cons_self) fun b _ => ?_
    exact bind (ih fun c hc => h c (List.mem_cons_of_mem a hc)) fun bs _ => pure trivial

-- A step of the traversal that comes last and has no counterpart in the walk.
theorem restore {step restoring : Traverse Unit} {walk : Lowering Unit}
    (hstep : K.Mirrors nesting p q step walk fun _ => True)
    (hrestoring : K.Mirrors nesting q r restoring (Pure.pure ()) fun _ => True) :
    K.Mirrors nesting p r (step >>= fun _ => restoring) walk fun _ => True :=
  hstep.bind (g := fun _ => Pure.pure ()) fun _ _ => hrestoring

-- What holds at the moment is what the stand says.
theorem here {next : Scope → Traverse α}
    (h : K.Mirrors nesting p q (next (p.scope.reading K.pair.left)) walk post) :
    K.Mirrors nesting p q (Traversal.here >>= next) walk post := by
  intro t ht
  have hrun : (Traversal.here >>= next) t = next (p.scope.reading K.pair.left) t := by
    rw [← ht.scope_eq]
    rfl
  rw [hrun]
  exact h t ht

theorem get {next : Traversal → Traverse α} {walkNext : State → Lowering α}
    (h : ∀ t : Traversal, K.Stands nesting p t →
      K.Mirrors nesting p q (next t) (walkNext t.state) post) :
    K.Mirrors nesting p q (MonadState.get >>= next) (MonadState.get >>= walkNext) post :=
  fun t ht => h t ht t ht

end Origins.Mirrors

/-! ## Steps that go into no part of the tree -/

/-- A step from the one state to the other leaves the blocks, the templates and the warning alone,
and lets nothing new wait. -/
structure Quiet (s t : State) : Prop where
  height : t.frames.length = s.frames.length
  pending : t.pendingTemplate = s.pendingTemplate ∨ t.pendingTemplate = none
  templates : t.templates = s.templates
  tooDeepAt : t.tooDeepAt = s.tooDeepAt

theorem Traversal.state_withState (t : Traversal) {s : State}
    (h : s.tooDeepAt = t.state.tooDeepAt) : (t.withState s).state = s := by
  cases s
  cases h
  rfl

namespace Origins

theorem Stands.withState {t : Traversal} {s : State} (ht : K.Stands nesting p t)
    (hheight : s.frames.length = t.frames.length)
    (hpending : s.pendingTemplate = t.pendingTemplate ∨ s.pendingTemplate = none)
    (htemplates : ∀ template ∈ s.templates, K.Holds template.node template.params) :
    K.Stands nesting p (t.withState s) where
  nesting_le := ht.nesting_le
  deepest_le := ht.deepest_le
  warnings_eq := ht.warnings_eq
  nesting_eq := ht.nesting_eq
  scope_eq := ht.scope_eq
  height_eq := hheight.trans ht.height_eq
  pending_eq := hpending.elim (fun h => ht.pending_eq.imp h.trans h.trans) .inr
  templates := htemplates

theorem Mirrors.onState {step : Scope → Lowering α}
    (hsame : step (p.scope.reading K.pair.left) = step (K.view p))
    (hquiet : ∀ s, Quiet s (step (K.view p) s).2) :
    K.Mirrors nesting p p (Traversal.onState step) (step (K.view p)) fun _ => True := by
  intro t ht
  have hrun : Traversal.onState step t =
      ((step (K.view p) t.state).1, t.withState (step (K.view p) t.state).2) := by
    change ((step t.scope t.state).1, t.withState (step t.scope t.state).2) = _
    rw [ht.scope_eq, hsame]
  obtain ⟨hheight, hpending, htemplates, htooDeep⟩ := hquiet t.state
  rw [hrun]
  refine ⟨rfl, t.state_withState htooDeep, ht.withState hheight hpending ?_, trivial⟩
  rw [htemplates]
  exact ht.templates

/-! ## Steps that move the traversal -/

-- A step of the traversal that has no counterpart in the walk.
theorem Mirrors.first {move : Traverse Unit} {step : Traverse α} {walk : Lowering α}
    {post : α → Prop} (hmove : K.Mirrors nesting p q move (Pure.pure ()) fun _ => True)
    (hstep : K.Mirrors nesting q r step walk post) :
    K.Mirrors nesting p r (move >>= fun _ => step) walk post :=
  hmove.bind (g := fun _ => walk) fun _ _ => hstep

-- Whatever context the traversal is in, the one that was left is put back.
theorem leaveContext_mirrors (context : Nat) :
    K.Mirrors nesting (p.inContext context) p (Traversal.setContext p.scope.context)
      (Pure.pure ()) fun _ => True := by
  intro t ht
  have hscope := congrArg (fun scope : Scope => { scope with context := p.scope.context })
    ht.scope_eq
  exact ⟨rfl, rfl, { ht with scope_eq := hscope }, trivial⟩

theorem pushRecord_mirrors (name : String) :
    K.Mirrors nesting p (p.inRecord name) (Traversal.pushRecord name) (Pure.pure ())
      fun _ => True := by
  intro t ht
  have hscope := congrArg (fun scope : Scope => { scope with records := name :: scope.records })
    ht.scope_eq
  exact ⟨rfl, rfl, { ht with scope_eq := hscope }, trivial⟩

theorem popRecord_mirrors (name : String) :
    K.Mirrors nesting (p.inRecord name) p Traversal.popRecord (Pure.pure ()) fun _ => True := by
  intro t ht
  have hscope := congrArg (fun scope : Scope => { scope with records := scope.records.tail })
    ht.scope_eq
  exact ⟨rfl, rfl, { ht with scope_eq := hscope }, trivial⟩

theorem pushTypeParams_mirrors (names : List String) :
    K.Mirrors nesting p (p.inTemplate names) (Traversal.pushTypeParams names) (Pure.pure ())
      fun _ => True := by
  intro t ht
  have hscope := congrArg
    (fun scope : Scope => { scope with typeParams := names :: scope.typeParams }) ht.scope_eq
  exact ⟨rfl, rfl, { ht with scope_eq := hscope }, trivial⟩

theorem popTypeParams_mirrors (names : List String) :
    K.Mirrors nesting (p.inTemplate names) p Traversal.popTypeParams (Pure.pure ())
      fun _ => True := by
  intro t ht
  have hscope := congrArg
    (fun scope : Scope => { scope with typeParams := scope.typeParams.tail }) ht.scope_eq
  exact ⟨rfl, rfl, { ht with scope_eq := hscope }, trivial⟩

theorem pushFrame_mirrors :
    K.Mirrors nesting p p.inBlock Traversal.pushFrame
      (modify fun s => { s with frames := [] :: s.frames }) fun _ => True := by
  intro t ht
  exact ⟨rfl, rfl, { ht with height_eq := congrArg Nat.succ ht.height_eq }, trivial⟩

-- The block that is dropped is never the outermost one.
theorem popFrame_mirrors :
    K.Mirrors nesting p.inBlock p Traversal.popFrame
      (modify fun s => { s with frames := s.frames.tail }) fun _ => True := by
  intro t ht
  have hheight : t.frames.length = p.outer + 1 + 1 := ht.height_eq
  have hrun : Traversal.popFrame t = ((), { t with frames := t.frames.tail }) := by
    change ((), if 1 < t.frames.length then { t with frames := t.frames.tail } else t) = _
    rw [if_pos (by omega)]
  have htail : t.frames.tail.length = p.outer + 1 := by
    rw [List.length_tail, hheight]
    rfl
  rw [hrun]
  exact ⟨rfl, rfl, { ht with height_eq := htail }, trivial⟩

theorem Mirrors.framed {step : Traverse Unit} {walk : Lowering Unit}
    (h : K.Mirrors nesting p.inBlock p.inBlock step walk fun _ => True) :
    K.Mirrors nesting p p (do Traversal.pushFrame; step; Traversal.popFrame) (withFrame walk)
      fun _ => True :=
  pushFrame_mirrors.bind fun _ _ => h.bind fun _ _ => popFrame_mirrors

-- A block, and what comes after it.
theorem Mirrors.framedBind {step after : Traverse Unit} {walk walkAfter : Lowering Unit}
    (h : K.Mirrors nesting p.inBlock p.inBlock step walk fun _ => True)
    (hafter : K.Mirrors nesting p q after walkAfter fun _ => True) :
    K.Mirrors nesting p q (do Traversal.pushFrame; step; Traversal.popFrame; after)
      (do withFrame walk; walkAfter) fun _ => True :=
  pushFrame_mirrors.bind fun _ _ => h.bind fun _ _ => popFrame_mirrors.bind fun _ _ => hafter

-- A block, and what is put back after it.
theorem Mirrors.framedThen {step restoring : Traverse Unit} {walk : Lowering Unit}
    (h : K.Mirrors nesting p.inBlock p.inBlock step walk fun _ => True)
    (hrestoring : K.Mirrors nesting p q restoring (Pure.pure ()) fun _ => True) :
    K.Mirrors nesting p q (do Traversal.pushFrame; step; Traversal.popFrame; restoring)
      (withFrame walk) fun _ => True :=
  h.framedBind hrestoring

-- The context that was left is returned, and the walk is handed the scope within.
theorem Mirrors.enterContext {kind : ContextKind} {name : String}
    {specialization : Specialization} {next : Nat → Traverse α} {walkNext : Scope → Lowering α}
    {post : α → Prop}
    (h : ∀ context, K.Mirrors nesting (p.inContext context) q (next p.scope.context)
      (walkNext (K.view (p.inContext context))) post) :
    K.Mirrors nesting p q (Traversal.enterContext kind name specialization >>= next)
      (Lowering.enterContext (K.view p) kind name specialization >>= walkNext) post := by
  intro t ht
  have hcontext : t.context = p.scope.context := congrArg Scope.context ht.scope_eq
  have hscope := congrArg
    (fun scope : Scope => { scope with context := t.unit.contexts.size }) ht.scope_eq
  let opened : Traversal := { t with
    unit := t.unit.addContext { kind, name, specialization, parent := some p.scope.context }
    context := t.unit.contexts.size }
  have hopened : K.Stands nesting (p.inContext t.unit.contexts.size) opened :=
    { ht with scope_eq := hscope }
  have hrun : (Traversal.enterContext kind name specialization >>= next) t =
      next p.scope.context opened := by
    change next t.context { t with
      unit := t.unit.addContext { kind, name, specialization, parent := some t.context }
      context := t.unit.contexts.size } = _
    rw [hcontext]
  rw [hrun]
  exact h t.unit.contexts.size opened hopened

theorem setSpecialization_mirrors (specialization : Specialization) :
    K.Mirrors nesting p p (Traversal.setSpecialization specialization)
      (modify fun s => { s with specialization }) fun _ => True :=
  fun _ ht => ⟨rfl, rfl, { ht with }, trivial⟩

-- What is taken was waiting where the traversal stands.
theorem takePendingTemplate_mirrors :
    K.Mirrors nesting p p (Traversal.onState fun _ => takePendingTemplate) takePendingTemplate
      fun template => template = p.pending ∨ template = none :=
  fun _ ht => ⟨rfl, rfl, { ht with pending_eq := .inr rfl }, ht.pending_eq⟩

theorem setPendingTemplate_mirrors {params : Option (List TemplateParam)}
    (h : params = q.pending ∨ params = none) (hscope : q.scope = p.scope)
    (houter : q.outer = p.outer) :
    K.Mirrors nesting p q (Traversal.setPendingTemplate params)
      (modify fun s => { s with pendingTemplate := params }) fun _ => True := by
  intro t ht
  refine ⟨rfl, rfl, { ht with pending_eq := h, scope_eq := ?_, height_eq := ?_ }, trivial⟩
  · rw [hscope]
    exact ht.scope_eq
  · rw [houter]
    exact ht.height_eq

theorem registerTemplate_mirrors {template : Scope → FunctionTemplate}
    (hsame : template (p.scope.reading K.pair.left) = template (K.view p))
    (horigin : K.Holds (template (K.view p)).node (template (K.view p)).params) :
    K.Mirrors nesting p p (Traversal.onState fun scope => registerTemplate (template scope))
      (registerTemplate (template (K.view p))) fun _ => True := by
  intro t ht
  have hrun : Traversal.onState (fun scope => registerTemplate (template scope)) t =
      ((), t.withState { t.state with
        templates := (template (K.view p)).register t.state.templates }) := by
    change ((), t.withState { t.state with templates := (template t.scope).register _ }) = _
    rw [ht.scope_eq, hsame]
  rw [hrun]
  refine ⟨rfl, rfl, ht.withState rfl (.inl rfl) fun known hknown => ?_, trivial⟩
  rcases FunctionTemplate.mem_register hknown with rfl | hold
  · exact horigin
  · exact ht.templates known hold

end Origins

end WidthCheck.Lowering
