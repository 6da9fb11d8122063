import WidthCheck.Proofs.Lowering.InstantiationMirror
import WidthCheck.Proofs.Lowering.Queue

/-!
# Traversal state

Visiting a node moves a traversal through contexts, records, templates, blocks and levels of the
tree and brings it back to where it was. An instantiation does the same from outside the tree, and
puts back what it has set for the function as well.
-/

namespace WidthCheck.Lowering

namespace Traversal

/-- The fields that hold for a part of the tree are as they were. -/
structure SamePlace (t u : Traversal) : Prop where
  source : u.source = t.source
  context : u.context = t.context
  records : u.records = t.records
  typeParams : u.typeParams = t.typeParams
  bindings : u.bindings = t.bindings
  depth : u.depth = t.depth
  skipBodies : u.skipBodies = t.skipBodies
  nesting : u.nesting = t.nesting

/-- The traversal is where it was. Of the blocks only the innermost may have changed, what waited
for a function is kept or used up, and all else is only added to, within the scope. -/
structure Restored (t u : Traversal) : Prop
    extends t.SamePlace u, Restores t.scope t.state u.state

/-- All of the traversal state is as it was. -/
structure Unmoved (t u : Traversal) : Prop extends t.SamePlace u where
  frames : u.frames = t.frames
  specialization : u.specialization = t.specialization
  pendingTemplate : u.pendingTemplate = t.pendingTemplate
  instantiationArgs : u.instantiationArgs = t.instantiationArgs

/-- A traversal that keeps to the limit of nesting, with a block to declare names in. -/
structure Sound (t : Traversal) : Prop extends t.Bounded where
  frames : t.frames ≠ []

/-- A traversal outside the tree, when no function is waited for. -/
structure Idle (t : Traversal) : Prop extends t.Sound where
  nesting_eq : t.nesting = 0
  pendingTemplate : t.pendingTemplate = none

/-- The traversals of a lowering between two attempts to instantiate a template. -/
inductive Between (source : Source) (root : Node) : Traversal → Prop
  | walked : Between source root
      { (visit root { source }).2 with uses := explicitFirst (visit root { source }).2.uses }
  | attempted {t : Traversal} (h : Between source root t) (use : TemplateUse) (index : Nat) :
      Between source root (tryInstantiate use index t).2

end Traversal

/-- The two do the same from every sound traversal. -/
structure Traverser.AgreeFromSound (hands other : Traverser) : Prop where
  visit : ∀ {t : Traversal}, t.Sound → ∀ node, other.visit node t = hands.visit node t
  infer : ∀ {t : Traversal}, t.Sound → ∀ node, other.infer node t = hands.infer node t

/-! ## Where a traversal stands -/

namespace Traversal

/-- Where the traversal stands. -/
def stand (t : Traversal) : Stand where
  scope := t.scope
  outer := t.frames.tail.length
  pending := t.pendingTemplate

/-- The traversal is compared with the walk that reads the same source. -/
def origins (t : Traversal) : Origins := .ofPair (.refl t.source)

variable {t u : Traversal}

theorem Sound.stands (ht : t.Sound) : t.origins.Stands t.nesting t.stand t :=
  { ht with
    nesting_eq := rfl
    scope_eq := rfl
    height_eq := (List.length_tail_add_one t.frames (List.length_pos_of_ne_nil ht.frames)).symm
    pending_eq := .inl rfl
    templates := fun _ _ => trivial }

end Traversal

open Traversal

namespace Origins

variable {K : Origins} {nesting : Nat} {p : Stand} {t u : Traversal}

theorem Stands.sound (ht : K.Stands nesting p t) : t.Sound :=
  { ht with frames := List.ne_nil_of_length_pos (ht.height_eq ▸ Nat.succ_pos _) }

theorem Stands.samePlace (ht : K.Stands nesting p t) (hu : K.Stands nesting p u) :
    t.SamePlace u := by
  have hscope : u.scope = t.scope := hu.scope_eq.trans ht.scope_eq.symm
  exact {
    source := congrArg Scope.source hscope
    context := congrArg Scope.context hscope
    records := congrArg Scope.records hscope
    typeParams := congrArg Scope.typeParams hscope
    bindings := congrArg Scope.bindings hscope
    depth := congrArg Scope.depth hscope
    skipBodies := congrArg Scope.skipBodies hscope
    nesting := hu.nesting_eq.trans ht.nesting_eq.symm }

theorem Hands.of_agree {hands other : Traverser} {below : Walker}
    (h : K.Hands nesting hands below) (hagree : hands.AgreeFromSound other) :
    K.Hands nesting other below where
  visit p node hnode t ht := by
    rw [hagree.visit ht.sound node]
    exact h.visit p node hnode t ht
  infer p node hnode t ht := by
    rw [hagree.infer ht.sound node]
    exact h.infer p node hnode t ht

end Origins

/-! ## Visits -/

variable {source : Source} {root : Node} {t : Traversal}

theorem visit_restored (ht : t.Sound) {levels : Nat} (hlevels : nestingLimit < levels + t.nesting)
    (node : Node) :
    t.Restored ((traverser levels).visit node t).2 ∧
      ((traverser levels).visit node t).2.Sound ∧
      ((traverser levels).visit node t).2.state =
        ((walkerAt t.nesting).visit t.scope node t.state).2 := by
  have hhands := t.origins.hands_traverser levels hlevels
  obtain ⟨-, hstate, hstands, -⟩ :=
    hhands.visit t.stand node ⟨trivial, fun _ _ => trivial⟩ t ht.stands
  have hrestores := (visit_effect (nestingLimit - t.nesting) t.scope node t.state).restores
  refine ⟨{ ht.stands.samePlace hstands with toRestores := ?_ }, hstands.sound, hstate⟩
  rw [hstate]
  exact hrestores

-- Both mirror the walker, since where they are compared the traversal stands somewhere.
theorem next_of_agree (ht : t.Sound) {levels : Nat} (hlevels : nestingLimit ≤ levels + t.nesting)
    {other : Traverser} (hagree : (traverser levels).AgreeFromSound other) (node : Node) :
    (other.next.visit node t).2.state = ((traverser (levels + 1)).visit node t).2.state ∧
      (other.next.infer node t).2.state = ((traverser (levels + 1)).infer node t).2.state := by
  have hnode : (t.origins.at t.stand.pending).Within node := ⟨trivial, fun _ _ => trivial⟩
  have hhands : t.origins.Hands t.nesting (traverser (levels + 1)) (walkerAt t.nesting) :=
    t.origins.hands_traverser (levels + 1) (by omega)
  have hother : t.origins.Hands t.nesting other.next (walkerAt t.nesting) :=
    t.origins.hands_next fun _ => (t.origins.hands_traverser levels (by omega)).of_agree hagree
  constructor
  · obtain ⟨-, hstate, -⟩ := hhands.visit t.stand node hnode t ht.stands
    obtain ⟨-, hstate', -⟩ := hother.visit t.stand node hnode t ht.stands
    rw [hstate, hstate']
  · obtain ⟨-, hstate, -⟩ := hhands.infer t.stand node hnode t ht.stands
    obtain ⟨-, hstate', -⟩ := hother.infer t.stand node hnode t ht.stands
    rw [hstate, hstate']

/-! ## Instantiations -/

theorem Traversal.Idle.stands (ht : t.Idle) : t.origins.Stands 0 t.stand t :=
  ht.nesting_eq ▸ ht.toSound.stands

-- What the traversal builds is what the walk builds, and the walk resumes its state.
theorem instantiate_unmoved (ht : t.Idle) (index : Nat) (args : List QualType)
    (kind : Specialization) (depth : Nat) :
    t.Unmoved (Traversal.instantiate index args kind depth t).2 ∧
      Resumed depth t.state (Traversal.instantiate index args kind depth t).2.state ∧
      (Traversal.instantiate index args kind depth t).2.Idle := by
  obtain ⟨-, hstate, hstands, -⟩ :=
    Origins.instantiate_mirrors (K := t.origins) (p := t.stand) ht.pendingTemplate index args kind
      depth t ht.stands
  have hresumed :
      Resumed depth t.state (Traversal.instantiate index args kind depth t).2.state := by
    rw [hstate]
    exact instantiate_resumed t.source index args kind depth t.state
  have hpending := hresumed.pendingTemplate ht.pendingTemplate
  refine ⟨?_, hresumed, ?_⟩
  · exact { ht.stands.samePlace hstands with
      frames := hresumed.frames
      specialization := hresumed.specialization
      pendingTemplate := hpending.trans ht.pendingTemplate.symm
      instantiationArgs := hresumed.instantiationArgs }
  · exact { hstands.sound with
      nesting_eq := hstands.nesting_eq
      pendingTemplate := hpending }

theorem tryInstantiate_idle (ht : t.Idle) (use : TemplateUse) (index : Nat) :
    (Traversal.tryInstantiate use index t).2.Idle := by
  have hget : (get : Traverse Traversal) t = (t, t) := rfl
  unfold Traversal.tryInstantiate
  simp only [bind_run, hget]
  cases t.templates[index]?.bind (deduce · use) with
  | none => exact ht
  | some args => exact (instantiate_unmoved ht index args use.kind use.depth).2.2

/-! ## A whole lowering -/

theorem initial_idle (source : Source) : ({ source } : Traversal).Idle where
  nesting_le := Nat.zero_le _
  deepest_le := Nat.zero_le _
  warnings_eq := rfl
  frames := List.cons_ne_nil _ _
  nesting_eq := rfl
  pendingTemplate := rfl

theorem walked_idle (source : Source) (root : Node) :
    (Traversal.visit root { source }).2.Idle := by
  have hlevels : nestingLimit < nestingLimit + 1 + ({ source } : Traversal).nesting :=
    Nat.lt_succ_self _
  obtain ⟨hrestored, hsound, -⟩ := visit_restored (initial_idle source).toSound hlevels root
  exact { hsound with
    nesting_eq := hrestored.nesting
    pendingTemplate := hrestored.pendingTemplate.elim id id }

theorem Traversal.Between.idle (h : Between source root t) : t.Idle := by
  induction h with
  | walked => exact { walked_idle source root with }
  | attempted _ use index ih => exact tryInstantiate_idle ih use index

namespace Traversal.Between

theorem attempts (h : Between source root t) (use : TemplateUse) (indices : List Nat) :
    Between source root (indices.forM (tryInstantiate use) t).2 := by
  induction indices generalizing t with
  | nil => exact h
  | cons index rest ih => exact ih (h.attempted use index)

theorem uses (h : Between source root t) (uses : List TemplateUse) :
    Between source root (uses.forM processUse t).2 := by
  induction uses generalizing t with
  | nil => exact h
  | cons use rest ih => exact ih (h.attempts use (candidates t.templates use.name))

theorem levels (h : Between source root t) (levels first : Nat) :
    Between source root (processLevels levels first t).2 := by
  induction levels generalizing t first with
  | zero => exact h
  | succ levels ih => exact ih (h.uses (t.uses.toList.drop first)) _

theorem ofTree (source : Source) (root : Node) :
    Between source root (ofTree source root) := by
  have hsort (t : Traversal) :
      (modify fun self => { self with uses := explicitFirst self.uses } : Traverse Unit) t =
        ((), { t with uses := explicitFirst t.uses }) := rfl
  unfold Traversal.ofTree lowerTree processUses
  simp only [StateT.run, bind_run, hsort]
  exact walked.levels instantiationLimit 0

end Traversal.Between

/-- From every sound traversal, at whatever level of the tree, visiting a node brings the traversal
back to where it was, keeps to the limit of nesting on the way, and builds what the walk builds. It
goes on from sound traversals only: what would be done from others makes no difference. An
instantiation from outside the tree leaves all of the traversal state as it was, and a lowering
instantiates templates only there. It gives the warning about nesting at most once. -/
theorem traversal_state_restored (source : Source) (root : Node) :
    (∀ t : Traversal, t.Sound → ∀ levels, nestingLimit < levels + t.nesting → ∀ node,
      t.Restored ((traverser levels).visit node t).2 ∧
        ((traverser levels).visit node t).2.Sound ∧
        ((traverser levels).visit node t).2.state =
          ((walkerAt t.nesting).visit t.scope node t.state).2) ∧
    (∀ t : Traversal, t.Sound → ∀ levels, nestingLimit ≤ levels + t.nesting →
      ∀ other, (traverser levels).AgreeFromSound other → ∀ node,
        (other.next.visit node t).2.state = ((traverser (levels + 1)).visit node t).2.state ∧
        (other.next.infer node t).2.state = ((traverser (levels + 1)).infer node t).2.state) ∧
    (∀ t : Traversal, t.Idle → ∀ index args kind depth,
      t.Unmoved (Traversal.instantiate index args kind depth t).2 ∧
        Resumed depth t.state (Traversal.instantiate index args kind depth t).2.state ∧
        (Traversal.instantiate index args kind depth t).2.Idle) ∧
    (∀ t, Between source root t → t.Idle) ∧
    Between source root (Traversal.ofTree source root) ∧
    (Traversal.ofTree source root).state = finalState source root ∧
    ({ source } : Traversal).SamePlace (Traversal.ofTree source root) ∧
    (Traversal.ofTree source root).deepest ≤ nestingLimit ∧
    (Traversal.ofTree source root).warnings.length ≤ 1 := by
  obtain ⟨hstate, hstands⟩ :=
    (Origins.ofPair (.refl source)).ofTree_mirrors root trivial
  have hplace := (Origins.ofPair (.refl source)).stands_initial.samePlace hstands
  exact ⟨fun t ht levels hlevels node => visit_restored ht hlevels node,
    fun t ht levels hlevels other hagree node => next_of_agree ht hlevels hagree node,
    fun t ht index args kind depth => instantiate_unmoved ht index args kind depth,
    fun t ht => ht.idle, .ofTree source root, hstate, hplace, hstands.deepest_le,
    hstands.warnings_le⟩

/-- The tree of `namespace N{struct S;}`. -/
def namespaceTree : Node :=
  .mk { kind := .namespaceDefinition, span := ⟨0, 22⟩ } [
    .mk { kind := .other "namespace_identifier", field := some .name, span := ⟨10, 11⟩ } [],
    .mk { kind := .other "declaration_list", field := some .body, span := ⟨11, 22⟩ } [
      .mk { kind := .structSpecifier, span := ⟨12, 20⟩ } [
        .mk { kind := .typeIdentifier, field := some .name, span := ⟨19, 20⟩ } []]]]

/-- The text of `namespaceTree`. -/
def namespaceSource : Source :=
  ⟨#[110, 97, 109, 101, 115, 112, 97, 99, 101, 32, 78, 123, 115, 116, 114, 117, 99, 116, 32, 83,
    59, 125]⟩

/-- A traversal inside a record of a template that is being instantiated, one level above the
limit. -/
def innermostTraversal : Traversal where
  source := namespaceSource
  specialization := .implicitInstantiation
  typeParams := [["U"]]
  bindings := [("T", .builtin "long")]
  records := ["R"]
  frames := [[("x", .builtin "long")], []]
  pendingTemplate := some []
  depth := 2
  skipBodies := true
  nesting := 255
  deepest := 255

/-- A traversal outside the tree that knows the tree as the function of a template. -/
def idleTraversal : Traversal where
  source := namespaceSource
  frames := [[("x", .builtin "long")]]
  templates := [{
    name := "f", params := [{ name := "T", isType := true, default := none }], paramTypes := []
    node := namespaceTree, context := 0, records := ["R"] }]

/-- The traverser for one level, which loses all that was built where there is no block. -/
def lossyTraverser : Traverser where
  visit node t :=
    if t.frames.isEmpty then ((), { source := t.source }) else (traverser 1).visit node t
  infer node t :=
    if t.frames.isEmpty then (none, { source := t.source }) else (traverser 1).infer node t

-- The namespace is entered at the last level; the record in it is refused, with a warning.
theorem innermostTraversal_restored :
    innermostTraversal.Restored
        ((traverser 2).visit namespaceTree innermostTraversal).2 ∧
      ((traverser 2).visit namespaceTree innermostTraversal).2.unit.contexts.size = 2 ∧
      ((traverser 2).visit namespaceTree innermostTraversal).2.deepest = 256 ∧
      ((traverser 2).visit namespaceTree innermostTraversal).2.warnings = [1] ∧
      (lossyTraverser.next.visit namespaceTree innermostTraversal).2.state =
        ((traverser 2).visit namespaceTree innermostTraversal).2.state ∧
      idleTraversal.Unmoved
        (Traversal.instantiate 0 [.builtin "long"] .implicitInstantiation 0 idleTraversal).2 ∧
      (Traversal.instantiate 0 [.builtin "long"] .implicitInstantiation 0
        idleTraversal).2.unit.contexts.size = 2 ∧
      (Traversal.ofTree namespaceSource namespaceTree).Idle := by
  obtain ⟨hvisit, hnext, hinstantiate, hbetween, hend, -⟩ :=
    traversal_state_restored namespaceSource namespaceTree
  have hinnermost : innermostTraversal.Sound := ⟨⟨by decide, by decide, rfl⟩, by decide⟩
  have hidle : idleTraversal.Idle := ⟨⟨⟨by decide, by decide, rfl⟩, by decide⟩, rfl, rfl⟩
  have hlossy : (traverser 1).AgreeFromSound lossyTraverser :=
    ⟨fun ht _ => if_neg (by simpa using ht.frames), fun ht _ => if_neg (by simpa using ht.frames)⟩
  exact ⟨(hvisit _ hinnermost 2 (by decide) namespaceTree).1, by decide, by decide, by decide,
    (hnext _ hinnermost 1 (by decide) _ hlossy namespaceTree).1,
    (hinstantiate _ hidle 0 _ _ 0).1, by decide, hbetween _ hend⟩

end WidthCheck.Lowering
