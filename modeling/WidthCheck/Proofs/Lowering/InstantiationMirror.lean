import WidthCheck.Lowering.Traversal.Instantiation
import WidthCheck.Proofs.Lowering.NestingLimit

/-!
# Instantiating templates is mirrored

Templates are instantiated while no level of the tree is entered and nothing waits for a function.
Lowering the pattern of a template moves the traversal to where the template was found, and back. So
a whole lowering is mirrored, and the traversal ends where it started.
-/

namespace WidthCheck.Lowering

/-- The stand in another scope. -/
def Stand.moved (p : Stand) (scope : Scope) : Stand := { p with scope }

/-- The stand from which a tree is lowered. -/
def Stand.start (source : Source) : Stand := { scope := { source }, outer := 0, pending := none }

namespace Origins

variable {K : Origins} {p : Stand} {template : FunctionTemplate} {args : List QualType}
  {kind : Specialization} {depth : Nat}

theorem Stands.source_eq {nesting : Nat} {t : Traversal} (ht : K.Stands nesting p t) :
    t.source = K.pair.left :=
  congrArg Scope.source ht.scope_eq

-- Nothing is asked of a node if nothing waits for a function.
theorem within_at {pending : Option (List TemplateParam)} {node : Node}
    (hnode : K.pair.Within node) (hnone : pending = none) : (K.at pending).Within node := by
  subst hnone
  exact ⟨hnode, fun _ hparams => by cases hparams⟩

/-! ## Patterns -/

theorem visit_mirrors {node : Node} (hnode : (K.at p.pending).Within node) :
    K.Mirrors 0 p p (Traversal.visit node) (visit (K.view p) node) fun _ => True := by
  rw [← walkerAt_zero]
  exact (K.hands_traverser (nestingLimit + 1) (by omega)).visit p node hnode

theorem enterPattern_mirrors :
    K.Mirrors 0 p (p.moved (patternScope K.pair.left template args kind depth))
      (Traversal.enterPattern template args kind depth)
      (modify fun s => { s with
        specialization := kind
        instantiationArgs := some (", ".intercalate (args.map QualType.text)) })
      fun _ => True := by
  intro t ht
  refine ⟨rfl, rfl, { ht with scope_eq := ?_ }, trivial⟩
  change patternScope t.source template args kind depth = _
  rw [ht.source_eq]
  rfl

-- Whatever scope the traversal is in, the saved one is put back.
theorem leavePattern_mirrors {saved : Traversal} (hsaved : K.Stands 0 p saved) (scope : Scope) :
    K.Mirrors 0 (p.moved scope) p (Traversal.leavePattern saved)
      (modify fun s => { s with
        specialization := saved.state.specialization
        instantiationArgs := saved.state.instantiationArgs })
      fun _ => True := by
  intro t ht
  refine ⟨rfl, rfl, { ht with scope_eq := ?_ }, trivial⟩
  change saved.scope.reading t.source = _
  rw [ht.source_eq, hsaved.scope_eq]
  rfl

theorem lowerPattern_mirrors (hnode : (K.at p.pending).Within template.node) :
    K.Mirrors 0 p p (Traversal.lowerPattern template args kind depth)
      (lowerPattern K.pair.right template args kind depth) fun _ => True := by
  refine .get fun saved hsaved => .bind enterPattern_mirrors fun _ _ => ?_
  exact .framedBind (visit_mirrors hnode) (leavePattern_mirrors hsaved _)

/-! ## Uses -/

variable {use : TemplateUse} (hnone : p.pending = none)

include hnone

-- The template was found in the tree, so its pattern can be visited again.
theorem instantiate_mirrors (index : Nat) (args : List QualType) (kind : Specialization)
    (depth : Nat) :
    K.Mirrors 0 p p (Traversal.instantiate index args kind depth)
      (instantiate K.pair.right index args kind depth) fun _ => True := by
  refine .get fun t ht => .branch (fun _ => ?_) fun _ => .pure trivial
  have hset : K.Mirrors 0 p p
      (set { t with instantiated := (index, args) :: t.instantiated })
      (set { t.state with instantiated := (index, args) :: t.state.instantiated })
      fun _ => True :=
    fun _ _ => ⟨rfl, rfl, { ht with }, trivial⟩
  refine .bind hset fun _ _ => ?_
  cases htemplate : t.templates[index]? with
  | none =>
    have hwalk : t.state.templates[index]? = none := htemplate
    rw [hwalk]
    exact .pure trivial
  | some template =>
    have hwalk : t.state.templates[index]? = some template := htemplate
    have hholds := ht.templates template (List.mem_of_getElem? htemplate)
    rw [hwalk]
    exact lowerPattern_mirrors (within_at (K.within hholds) hnone)

theorem tryInstantiate_mirrors (index : Nat) :
    K.Mirrors 0 p p (Traversal.tryInstantiate use index)
      (tryInstantiate K.pair.right use index) fun _ => True := by
  refine .get fun t _ => ?_
  cases hargs : t.templates[index]?.bind (deduce · use) with
  | none =>
    have hwalk : t.state.templates[index]?.bind (deduce · use) = none := hargs
    rw [hwalk]
    exact .pure trivial
  | some args =>
    have hwalk : t.state.templates[index]?.bind (deduce · use) = some args := hargs
    rw [hwalk]
    exact instantiate_mirrors hnone index args use.kind use.depth

theorem processUse_mirrors (use : TemplateUse) :
    K.Mirrors 0 p p (Traversal.processUse use) (processUse K.pair.right use) fun _ => True :=
  .get fun _ _ => .forM _ fun index _ => tryInstantiate_mirrors hnone index

theorem processLevels_mirrors (levels first : Nat) :
    K.Mirrors 0 p p (Traversal.processLevels levels first)
      (processLevels K.pair.right levels first) fun _ => True := by
  induction levels generalizing first with
  | zero => exact .pure trivial
  | succ levels ih =>
    refine .get fun t _ => ?_
    exact .bind (.forM _ fun use _ => processUse_mirrors hnone use) fun _ _ => ih _

theorem processUses_mirrors :
    K.Mirrors 0 p p Traversal.processUses (processUses K.pair.right) fun _ => True := by
  have hsort : K.Mirrors 0 p p (modify fun self => { self with uses := explicitFirst self.uses })
      (modify fun s => { s with uses := explicitFirst s.uses }) fun _ => True :=
    fun _ ht => ⟨rfl, rfl, { ht with }, trivial⟩
  exact .bind hsort fun _ _ => processLevels_mirrors hnone instantiationLimit 0

omit hnone

/-! ## A whole lowering -/

theorem lowerTree_mirrors {root : Node} (hroot : K.pair.Within root) :
    K.Mirrors 0 (.start K.pair.left) (.start K.pair.left) (Traversal.lowerTree root)
      (lowerTree K.pair.right root) fun _ => True :=
  .bind (visit_mirrors (within_at hroot rfl)) fun _ _ => processUses_mirrors rfl

theorem stands_initial (K : Origins) :
    K.Stands 0 (.start K.pair.left) { source := K.pair.left } where
  nesting_le := Nat.zero_le _
  deepest_le := Nat.zero_le _
  warnings_eq := rfl
  nesting_eq := rfl
  scope_eq := rfl
  height_eq := rfl
  pending_eq := .inl rfl
  templates _ hmem := absurd hmem List.not_mem_nil

-- Stated of any two steps, so that running them is not unfolded.
theorem Mirrors.run {step : Traverse Unit} {walk : Lowering Unit} {q : Stand}
    (h : K.Mirrors 0 p q step walk fun _ => True) {t : Traversal} (ht : K.Stands 0 p t) :
    (step.run t).2.state = (walk.run t.state).2 ∧ K.Stands 0 q (step.run t).2 := by
  obtain ⟨-, hstate, hstands, -⟩ := h t ht
  exact ⟨hstate, hstands⟩

theorem ofTree_mirrors (K : Origins) (root : Node) (hroot : K.pair.Within root) :
    (Traversal.ofTree K.pair.left root).state = finalState K.pair.right root ∧
      K.Stands 0 (.start K.pair.left) (Traversal.ofTree K.pair.left root) := by
  unfold Traversal.ofTree finalState
  exact (lowerTree_mirrors hroot).run K.stands_initial

end Origins

end WidthCheck.Lowering
