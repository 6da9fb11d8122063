import Mathlib.Logic.Function.Iterate
import WidthCheck.Lowering.Instantiation
import WidthCheck.Proofs.Lowering.Restores

/-!
# The queue of template uses

Uses are worked off level by level. The same run is described here one use at a time, as a queue
that is read from the front while uses are added at its end. A use at the limit is passed over.
-/

namespace WidthCheck.Lowering

/-! ## One instantiation -/

/-- After instantiations for a use of this depth the state is as it was before, but for what has
been added. -/
structure Resumed (depth : Nat) (s t : State) : Prop where
  frames : t.frames = s.frames
  specialization : t.specialization = s.specialization
  instantiationArgs : t.instantiationArgs = s.instantiationArgs
  pendingTemplate : s.pendingTemplate = none → t.pendingTemplate = none
  tooDeepAt : ∀ line, s.tooDeepAt = some line → t.tooDeepAt = some line
  contexts : s.unit.contexts.toList <+: t.unit.contexts.toList
  entities : s.unit.entities.toList <+: t.unit.entities.toList
  uses : Appends (fun use => use.depth = depth + 1 ∧ use.kind.isInstantiation = true)
    s.uses.toList t.uses.toList
  instantiated : s.instantiated ⊆ t.instantiated

variable {depth : Nat} {s t u : State}

theorem Resumed.refl : Resumed depth s s where
  frames := rfl
  specialization := rfl
  instantiationArgs := rfl
  pendingTemplate h := h
  tooDeepAt _ h := h
  contexts := List.prefix_rfl
  entities := List.prefix_rfl
  uses := .refl
  instantiated := List.Subset.refl _

theorem Resumed.trans (first : Resumed depth s t) (second : Resumed depth t u) :
    Resumed depth s u where
  frames := second.frames.trans first.frames
  specialization := second.specialization.trans first.specialization
  instantiationArgs := second.instantiationArgs.trans first.instantiationArgs
  pendingTemplate h := second.pendingTemplate (first.pendingTemplate h)
  tooDeepAt line h := second.tooDeepAt line (first.tooDeepAt line h)
  contexts := first.contexts.trans second.contexts
  entities := first.entities.trans second.entities
  uses := first.uses.trans second.uses
  instantiated := List.Subset.trans first.instantiated second.instantiated

-- The pattern is walked in a block of its own, with the arguments and the kind waiting for its
-- function.
theorem lowerPattern_acts {P : QualType → Prop} (hP : TypeClosed P) (source : Source)
    (template : FunctionTemplate) {args : List QualType} (hargs : ∀ ty ∈ args, P ty)
    (kind : Specialization) (depth : Nat) {s : State} (hframes : FramesTyped P s.frames) :
    ∃ t, Effect P (patternScope source template args kind depth)
        { s with
          specialization := kind
          instantiationArgs := some (", ".intercalate (args.map QualType.text))
          frames := [] :: s.frames } t ∧
      (lowerPattern source template args kind depth s).2 =
        { t with
          frames := t.frames.tail
          specialization := s.specialization
          instantiationArgs := s.instantiationArgs } := by
  have hbindings : ∀ binding ∈ (patternScope source template args kind depth).bindings,
      P binding.2 := by
    intro binding hbinding
    exact hargs _ (List.of_mem_zip (List.mem_reverse.mp hbinding)).2
  exact ⟨_, ((walker_acts hP nestingLimit).visit _ template.node _
    ⟨hbindings, hframes.push⟩).1, rfl⟩

theorem lowerPattern_effect (source : Source) (template : FunctionTemplate)
    (args : List QualType) (kind : Specialization) (depth : Nat) (s : State) :
    ∃ t, Effect (fun _ => True) (patternScope source template args kind depth)
        { s with
          specialization := kind
          instantiationArgs := some (", ".intercalate (args.map QualType.text))
          frames := [] :: s.frames } t ∧
      (lowerPattern source template args kind depth s).2 =
        { t with
          frames := t.frames.tail
          specialization := s.specialization
          instantiationArgs := s.instantiationArgs } :=
  lowerPattern_acts .univ source template (fun _ _ => trivial) kind depth
    fun _ _ _ _ => trivial

theorem lowerPattern_resumed (source : Source) (template : FunctionTemplate)
    (args : List QualType) (kind : Specialization) (depth : Nat) (s : State) :
    Resumed depth s (lowerPattern source template args kind depth s).2 := by
  obtain ⟨t, heffect, hrun⟩ := lowerPattern_effect source template args kind depth s
  have hkept := heffect.kept
  have hgrows := heffect.grows
  rw [hrun]
  exact {
    frames := hkept.below
    specialization := rfl
    instantiationArgs := rfl
    pendingTemplate := fun h => hkept.pendingTemplate.elim (·.trans h) id
    tooDeepAt := hkept.tooDeepAt
    contexts := hgrows.contexts.isPrefix
    entities := hgrows.entities.isPrefix
    uses := hgrows.uses
    instantiated := fun _ h => hkept.instantiated.symm ▸ h }

-- Lowering a pattern instantiates nothing by itself: the uses in it wait for their turn.
theorem lowerPattern_instantiated (source : Source) (template : FunctionTemplate)
    (args : List QualType) (kind : Specialization) (depth : Nat) (s : State) :
    (lowerPattern source template args kind depth s).2.instantiated = s.instantiated := by
  obtain ⟨t, heffect, hrun⟩ := lowerPattern_effect source template args kind depth s
  rw [hrun]
  exact heffect.kept.instantiated

theorem instantiate_of_mem {source : Source} {index : Nat} {args : List QualType}
    {kind : Specialization} {depth : Nat} {s : State} (h : (index, args) ∈ s.instantiated) :
    (instantiate source index args kind depth s).2 = s := by
  have hdone : (!s.instantiated.contains (index, args)) = false := by simpa using h
  change ((if !s.instantiated.contains (index, args) then _ else pure () : Lowering Unit) s).2 = s
  rw [hdone]
  rfl

theorem instantiate_of_not_mem {source : Source} {index : Nat} {args : List QualType}
    {kind : Specialization} {depth : Nat} {s : State} (h : (index, args) ∉ s.instantiated) :
    (instantiate source index args kind depth s).2 =
      match s.templates[index]? with
      | some template => (lowerPattern source template args kind depth
          { s with instantiated := (index, args) :: s.instantiated }).2
      | none => { s with instantiated := (index, args) :: s.instantiated } := by
  have hdone : (!s.instantiated.contains (index, args)) = true := by simpa using h
  change ((if !s.instantiated.contains (index, args) then (do
      set { s with instantiated := (index, args) :: s.instantiated }
      match s.templates[index]? with
      | some template => lowerPattern source template args kind depth
      | none => return ()) else pure () : Lowering Unit) s).2 = _
  rw [if_pos hdone]
  cases s.templates[index]? <;> rfl

-- Noting that a template has been instantiated disturbs nothing.
theorem resumed_instantiated (depth : Nat) (s : State) (pair : Nat × List QualType) :
    Resumed depth s { s with instantiated := pair :: s.instantiated } :=
  { (Resumed.refl : Resumed depth s s) with
    instantiated := List.subset_cons_self _ _ }

theorem instantiate_resumed (source : Source) (index : Nat) (args : List QualType)
    (kind : Specialization) (depth : Nat) (s : State) :
    Resumed depth s (instantiate source index args kind depth s).2 := by
  by_cases hmem : (index, args) ∈ s.instantiated
  · rw [instantiate_of_mem hmem]
    exact .refl
  · rw [instantiate_of_not_mem hmem]
    have hnoted := resumed_instantiated depth s (index, args)
    split
    · exact hnoted.trans (lowerPattern_resumed source _ args kind depth _)
    · exact hnoted

theorem tryInstantiate_of_none {source : Source} {use : TemplateUse} {index : Nat} {s : State}
    (h : s.templates[index]?.bind (deduce · use) = none) :
    (tryInstantiate source use index s).2 = s := by
  have hget : (get : Lowering State) s = (s, s) := rfl
  unfold tryInstantiate
  simp only [bind_run, hget, h]
  rfl

theorem tryInstantiate_of_some {source : Source} {use : TemplateUse} {index : Nat} {s : State}
    {args : List QualType} (h : s.templates[index]?.bind (deduce · use) = some args) :
    (tryInstantiate source use index s).2 =
      (instantiate source index args use.kind use.depth s).2 := by
  have hget : (get : Lowering State) s = (s, s) := rfl
  unfold tryInstantiate
  simp only [bind_run, hget, h]

theorem tryInstantiate_resumed (source : Source) (use : TemplateUse) (index : Nat) (s : State) :
    Resumed use.depth s (tryInstantiate source use index s).2 := by
  cases h : s.templates[index]?.bind (deduce · use) with
  | none =>
    rw [tryInstantiate_of_none h]
    exact .refl
  | some args =>
    rw [tryInstantiate_of_some h]
    exact instantiate_resumed source index args use.kind use.depth s

theorem forM_tryInstantiate_resumed (source : Source) (use : TemplateUse) (indices : List Nat)
    (s : State) : Resumed use.depth s (indices.forM (tryInstantiate source use) s).2 := by
  induction indices generalizing s with
  | nil => exact .refl
  | cons index rest ih => exact (tryInstantiate_resumed source use index s).trans (ih _)

theorem processUse_resumed (source : Source) (use : TemplateUse) (s : State) :
    Resumed use.depth s (processUse source use s).2 :=
  forM_tryInstantiate_resumed source use (candidates s.templates use.name) s

/-! ## The queue -/

/-- The uses with the number of those that have been worked off. -/
structure Queue where
  next : Nat
  state : State

/-- The use that is next, if there is one. -/
def Queue.use? (q : Queue) : Option TemplateUse := q.state.uses[q.next]?

/-- Works off the next use. A use at the limit is passed over; a queue at its end stays there. -/
def Queue.step (source : Source) (q : Queue) : Queue :=
  match q.use? with
  | none => q
  | some use =>
      if use.depth < instantiationLimit then ⟨q.next + 1, (processUse source use q.state).2⟩
      else ⟨q.next + 1, q.state⟩

/-- The state after the walk. -/
def walked (source : Source) (root : Node) : State := (visit { source } root {}).2

/-- The state in which the first use is worked off. -/
def sorted (source : Source) (root : Node) : State :=
  { walked source root with uses := explicitFirst (walked source root).uses }

/-- The queue after this many steps. -/
def queue (source : Source) (root : Node) (steps : Nat) : Queue :=
  (Queue.step source)^[steps] ⟨0, sorted source root⟩

variable {source : Source} {root : Node}

theorem queue_succ (steps : Nat) :
    queue source root (steps + 1) = (queue source root steps).step source :=
  Function.iterate_succ_apply' _ _ _

theorem Queue.step_of_lt {q : Queue} {use : TemplateUse} (huse : q.use? = some use)
    (h : use.depth < instantiationLimit) :
    q.step source = ⟨q.next + 1, (processUse source use q.state).2⟩ := by
  unfold Queue.step
  rw [huse]
  exact if_pos h

theorem Queue.step_of_le {q : Queue} {use : TemplateUse} (huse : q.use? = some use)
    (h : instantiationLimit ≤ use.depth) : q.step source = ⟨q.next + 1, q.state⟩ := by
  unfold Queue.step
  rw [huse]
  exact if_neg (Nat.not_lt.mpr h)

theorem Queue.use?_of_drop {next : Nat} {s : State} {use : TemplateUse} {rest : List TemplateUse}
    (h : s.uses.toList.drop next = use :: rest) :
    (⟨next, s⟩ : Queue).use? = some use ∧ s.uses.toList.drop (next + 1) = rest := by
  constructor
  · change s.uses[next]? = some use
    rw [← Array.getElem?_toList, ← List.head?_drop, h]
    rfl
  · rw [← List.drop_drop, h]
    rfl

-- A level of uses is worked off in as many steps as it has uses. What it adds to the queue is one
-- deeper.
theorem iterate_level (source : Source) {depth : Nat} (hdepth : depth < instantiationLimit)
    (level : List TemplateUse) (rest : List TemplateUse) (next : Nat) (s : State)
    (hlevel : ∀ use ∈ level, use.depth = depth)
    (huses : s.uses.toList.drop next = level ++ rest) :
    (Queue.step source)^[level.length] ⟨next, s⟩ =
        ⟨next + level.length, (level.forM (processUse source) s).2⟩ ∧
      Appends (fun use => use.depth = depth + 1)
        s.uses.toList (level.forM (processUse source) s).2.uses.toList := by
  induction level generalizing next s rest with
  | nil => exact ⟨rfl, .refl⟩
  | cons use level ih =>
    rw [List.cons_append] at huses
    obtain ⟨huse, hdrop⟩ := Queue.use?_of_drop huses
    have hhead : use.depth = depth := hlevel use List.mem_cons_self
    obtain ⟨added, hadded, hkinds⟩ := (processUse_resumed source use s).uses
    -- The step leaves the rest of the level in its place and adds behind it.
    have hnext : (processUse source use s).2.uses.toList.drop (next + 1) =
        level ++ (rest ++ added) := by
      have hbound : next < s.uses.toList.length := by
        have hlength := congrArg List.length huses
        rw [List.length_drop, List.length_cons] at hlength
        omega
      rw [hadded, List.drop_append_of_le_length (by omega), hdrop, List.append_assoc]
    obtain ⟨hrun, hmore⟩ := ih (rest ++ added) (next + 1) (processUse source use s).2
      (fun other hother => hlevel other (List.mem_cons_of_mem use hother)) hnext
    constructor
    · rw [List.length_cons, Function.iterate_succ_apply,
        Queue.step_of_lt huse (hhead ▸ hdepth), hrun]
      congr 1
      omega
    · refine Appends.trans ⟨added, hadded, fun other hother => ?_⟩ hmore
      have hdeeper := (hkinds other hother).1
      rw [hhead] at hdeeper
      exact hdeeper

-- Uses at the limit are passed over.
theorem iterate_limit (source : Source) (level : List TemplateUse) (next : Nat) (s : State)
    (hlevel : ∀ use ∈ level, instantiationLimit ≤ use.depth)
    (huses : s.uses.toList.drop next = level) :
    (Queue.step source)^[level.length] ⟨next, s⟩ = ⟨next + level.length, s⟩ := by
  induction level generalizing next with
  | nil => rfl
  | cons use level ih =>
    obtain ⟨huse, hnext⟩ := Queue.use?_of_drop huses
    rw [List.length_cons, Function.iterate_succ_apply,
      Queue.step_of_le huse (hlevel use List.mem_cons_self),
      ih (next + 1) (fun other hother => hlevel other (List.mem_cons_of_mem use hother)) hnext]
    congr 1
    omega

/-- Levels of uses at increasing depths, the first of them deeper than `depth`. -/
structure Ascending (depth : Nat) (uses : List TemplateUse) : Prop where
  sorted : uses.Pairwise (·.depth ≤ ·.depth)
  deeper : ∀ use ∈ uses, depth < use.depth
  limited : ∀ use ∈ uses, use.depth ≤ instantiationLimit

theorem Ascending.append_level {depth : Nat} {level rest : List TemplateUse}
    (h : Ascending (depth + 1) rest) (hdepth : depth < instantiationLimit)
    (hlevel : ∀ use ∈ level, use.depth = depth + 1) : Ascending depth (level ++ rest) where
  sorted := by
    refine List.pairwise_append.mpr ⟨?_, h.sorted, fun a ha b hb => ?_⟩
    · exact List.pairwise_of_forall_mem_list fun a ha b hb =>
        Nat.le_of_eq ((hlevel a ha).trans (hlevel b hb).symm)
    · have hdeeper := h.deeper b hb
      rw [hlevel a ha]
      omega
  deeper use huse := by
    rcases List.mem_append.mp huse with huse | huse
    · rw [hlevel use huse]
      omega
    · exact Nat.lt_of_succ_lt (h.deeper use huse)
  limited use huse := by
    rcases List.mem_append.mp huse with huse | huse
    · rw [hlevel use huse]
      omega
    · exact h.limited use huse

-- Working off level by level is what the queue does, step by step, until it is at its end.
theorem processLevels_queue (source : Source) (levels depth first : Nat) (s : State)
    (hdepth : depth + levels = instantiationLimit) (hfirst : first ≤ s.uses.toList.length)
    (hlevel : ∀ use ∈ s.uses.toList.drop first, use.depth = depth) :
    ∃ steps added, first + steps = (processLevels source levels first s).2.uses.toList.length ∧
      (Queue.step source)^[steps] ⟨first, s⟩ =
        ⟨first + steps, (processLevels source levels first s).2⟩ ∧
      (processLevels source levels first s).2.uses.toList = s.uses.toList ++ added ∧
      Ascending depth added := by
  induction levels generalizing depth first s with
  | zero =>
    refine ⟨(s.uses.toList.drop first).length, [], ?_, ?_, (List.append_nil _).symm, ?_⟩
    · rw [List.length_drop]
      change _ = s.uses.toList.length
      omega
    · refine iterate_limit source _ first s (fun use huse => ?_) rfl
      rw [hlevel use huse]
      omega
    · exact ⟨.nil, by simp, by simp⟩
  | succ levels ih =>
    obtain ⟨hrun, added, hadded, hkinds⟩ := iterate_level source
      (by omega : depth < instantiationLimit) (s.uses.toList.drop first) [] first s hlevel
      (by rw [List.append_nil])
    have hdeeper : ∀ use ∈ added, use.depth = depth + 1 := hkinds
    have hlength : first + (s.uses.toList.drop first).length = s.uses.toList.length := by
      rw [List.length_drop]
      omega
    -- The next level is what this one has added.
    have hnext : ((s.uses.toList.drop first).forM (processUse source) s).2.uses.toList.drop
        (first + (s.uses.toList.drop first).length) = added := by
      rw [hadded, hlength, List.drop_left]
    obtain ⟨steps, more, hsteps, hqueue, hmore, hascending⟩ := ih (depth + 1)
      (first + (s.uses.toList.drop first).length)
      ((s.uses.toList.drop first).forM (processUse source) s).2 (by omega)
      (by rw [hadded, hlength, List.length_append]; omega)
      (by rw [hnext]; exact hdeeper)
    refine ⟨steps + (s.uses.toList.drop first).length, added ++ more, ?_, ?_, ?_, ?_⟩
    · rw [← Nat.add_assoc, Nat.add_right_comm]
      exact hsteps
    · rw [Function.iterate_add_apply, hrun, hqueue, Nat.add_assoc, Nat.add_comm steps]
      rfl
    · change (processLevels source levels _ _).2.uses.toList = _
      rw [hmore, hadded, List.append_assoc]
    · exact hascending.append_level (by omega) hdeeper

/-! ## A whole lowering -/

theorem walked_effect (source : Source) (root : Node) :
    Effect (fun _ => True) { source } {} (walked source root) :=
  visit_effect nestingLimit _ _ _

theorem depth_of_mem_walked {use : TemplateUse} (h : use ∈ (walked source root).uses) :
    use.depth = 0 ∧ use.kind.isInstantiation = true := by
  obtain ⟨added, hadded, hkinds⟩ := (walked_effect source root).grows.uses
  rw [← Array.mem_toList_iff, hadded] at h
  exact hkinds use h

theorem mem_sorted_iff {use : TemplateUse} :
    use ∈ (sorted source root).uses ↔ use ∈ (walked source root).uses := by
  change use ∈ explicitFirst (walked source root).uses ↔ _
  unfold explicitFirst
  by_cases hkind : use.kind = .implicitInstantiation <;> simp [hkind]

theorem processUses_run (source : Source) (s : State) :
    (processUses source s).2 = (processLevels source instantiationLimit 0
      { s with uses := explicitFirst s.uses }).2 := by
  unfold processUses
  generalize instantiationLimit = levels
  rfl

theorem finalState_eq (source : Source) (root : Node) :
    finalState source root =
      (processLevels source instantiationLimit 0 (sorted source root)).2 := by
  unfold finalState lowerTree
  simp only [StateT.run, bind_run]
  exact processUses_run source (walked source root)

theorem finalState_queue (source : Source) (root : Node) :
    queue source root (finalState source root).uses.size =
        ⟨(finalState source root).uses.size, finalState source root⟩ ∧
      ∃ added, (finalState source root).uses.toList = (sorted source root).uses.toList ++ added ∧
        Ascending 0 added := by
  have hlevel : ∀ use ∈ (sorted source root).uses.toList.drop 0, use.depth = 0 := by
    intro use huse
    rw [List.drop_zero, Array.mem_toList_iff, mem_sorted_iff] at huse
    exact (depth_of_mem_walked huse).1
  obtain ⟨steps, added, hsteps, hqueue, hadded, hascending⟩ :=
    processLevels_queue source instantiationLimit 0 0 (sorted source root) (Nat.zero_add _)
      (Nat.zero_le _) hlevel
  rw [← finalState_eq, Nat.zero_add, Array.length_toList] at hsteps
  rw [← finalState_eq, Nat.zero_add, hsteps] at hqueue
  rw [← finalState_eq] at hadded
  exact ⟨hqueue, added, hadded, hascending⟩

theorem queue_state_end (source : Source) (root : Node) :
    (queue source root (finalState source root).uses.size).state = finalState source root := by
  rw [(finalState_queue source root).1]

theorem Queue.next_step_le (source : Source) (q : Queue) : (q.step source).next ≤ q.next + 1 := by
  unfold Queue.step
  split
  · exact Nat.le_succ _
  · split <;> exact Nat.le_refl _

theorem queue_next_add_le (source : Source) (root : Node) (steps more : Nat) :
    (queue source root (steps + more)).next ≤ (queue source root steps).next + more := by
  induction more with
  | zero => exact Nat.le_refl _
  | succ more ih =>
    have hstep := (queue source root (steps + more)).next_step_le source
    rw [← Nat.add_assoc, queue_succ]
    omega

theorem queue_next {steps : Nat} (h : steps ≤ (finalState source root).uses.size) :
    (queue source root steps).next = steps := by
  -- The queue comes to its end with every step taken, so no step before can have been idle.
  have hend : (queue source root (finalState source root).uses.size).next =
      (finalState source root).uses.size := by
    rw [(finalState_queue source root).1]
  have hbefore := queue_next_add_le source root 0 steps
  have hafter := queue_next_add_le source root steps ((finalState source root).uses.size - steps)
  rw [Nat.add_sub_of_le h, hend] at hafter
  rw [Nat.zero_add] at hbefore
  change _ ≤ 0 + steps at hbefore
  omega

-- What a step does: it works off the use that is next, or passes it over.
theorem Queue.step_resumed (source : Source) {q : Queue} {use : TemplateUse}
    (h : q.use? = some use) : Resumed use.depth q.state (q.step source).state := by
  by_cases hlimit : use.depth < instantiationLimit
  · rw [Queue.step_of_lt h hlimit]
    exact processUse_resumed source use q.state
  · rw [Queue.step_of_le h (Nat.not_lt.mp hlimit)]
    exact .refl

theorem Queue.step_eq_self {q : Queue} (h : q.use? = none) : q.step source = q := by
  unfold Queue.step
  rw [h]

theorem Queue.use?_end (s : State) : (⟨s.uses.size, s⟩ : Queue).use? = none :=
  Array.getElem?_eq_none (Nat.le_refl _)

theorem queue_of_le {steps : Nat} (h : (finalState source root).uses.size ≤ steps) :
    queue source root steps = ⟨(finalState source root).uses.size, finalState source root⟩ := by
  induction h with
  | refl => exact (finalState_queue source root).1
  | step _ ih =>
    rw [queue_succ, ih]
    exact Queue.step_eq_self (Queue.use?_end _)

theorem lt_size_of_queue_use? {steps : Nat} {use : TemplateUse}
    (h : (queue source root steps).use? = some use) :
    steps < (finalState source root).uses.size := by
  by_contra hend
  rw [queue_of_le (Nat.not_lt.mp hend), Queue.use?_end] at h
  cases h

-- What relates the states of a run before and after each step relates any two of them.
theorem queue_related (source : Source) (root : Node) {R : State → State → Prop}
    (hrefl : ∀ s, R s s) (htrans : ∀ s t u, R s t → R t u → R s u)
    (hstep : ∀ (q : Queue) (use : TemplateUse), q.use? = some use →
      R q.state (q.step source).state) (steps more : Nat) :
    R (queue source root steps).state (queue source root (steps + more)).state := by
  induction more with
  | zero => exact hrefl _
  | succ more ih =>
    rw [← Nat.add_assoc, queue_succ]
    cases huse : (queue source root (steps + more)).use? with
    | none =>
      rw [Queue.step_eq_self huse]
      exact ih
    | some use => exact htrans _ _ _ ih (hstep _ use huse)

theorem queue_uses_prefix (source : Source) (root : Node) (steps more : Nat) :
    (queue source root steps).state.uses.toList <+:
      (queue source root (steps + more)).state.uses.toList :=
  queue_related source root (R := fun s t => s.uses.toList <+: t.uses.toList)
    (fun _ => List.prefix_rfl) (fun _ _ _ => List.IsPrefix.trans)
    (fun _ _ huse => (Queue.step_resumed source huse).uses.isPrefix) steps more

theorem queue_contexts_prefix (source : Source) (root : Node) (steps more : Nat) :
    (queue source root steps).state.unit.contexts.toList <+:
      (queue source root (steps + more)).state.unit.contexts.toList :=
  queue_related source root (R := fun s t => s.unit.contexts.toList <+: t.unit.contexts.toList)
    (fun _ => List.prefix_rfl) (fun _ _ _ => List.IsPrefix.trans)
    (fun _ _ huse => (Queue.step_resumed source huse).contexts) steps more

theorem queue_instantiated_subset (source : Source) (root : Node) (steps more : Nat) :
    (queue source root steps).state.instantiated ⊆
      (queue source root (steps + more)).state.instantiated :=
  queue_related source root (R := fun s t => s.instantiated ⊆ t.instantiated)
    (fun _ => List.Subset.refl _) (fun _ _ _ => List.Subset.trans)
    (fun _ _ huse => (Queue.step_resumed source huse).instantiated) steps more

-- The use that is worked off in a step is the one at that place in the end.
theorem queue_use? {steps : Nat} (h : steps < (finalState source root).uses.size) :
    (queue source root steps).use? = (finalState source root).uses[steps]? := by
  have hnext := queue_next (Nat.le_of_lt h)
  cases huse : (queue source root steps).use? with
  | none =>
    -- A queue at its end would not reach the next place.
    have hidle : (queue source root (steps + 1)).next = steps + 1 := queue_next h
    rw [queue_succ, Queue.step_eq_self huse] at hidle
    omega
  | some use =>
    obtain ⟨later, hlater⟩ :=
      queue_uses_prefix source root steps ((finalState source root).uses.size - steps)
    rw [Nat.add_sub_of_le (Nat.le_of_lt h), queue_state_end] at hlater
    change (queue source root steps).state.uses[(queue source root steps).next]? = some use at huse
    rw [hnext, ← Array.getElem?_toList] at huse
    rw [← Array.getElem?_toList, ← hlater,
      List.getElem?_append_left (List.getElem?_eq_some_iff.mp huse).1, huse]

/-! ## The order of the uses -/

/-- A use that stands before another is not deeper, and not an implicit one before an explicit one
of the walk. -/
structure TemplateUse.Before (use later : TemplateUse) : Prop where
  depth : use.depth ≤ later.depth
  explicit : later.depth = 0 → use.kind = .implicitInstantiation →
    later.kind = .implicitInstantiation

theorem TemplateUse.Before.refl (use : TemplateUse) : use.Before use :=
  ⟨Nat.le_refl _, fun _ h => h⟩

theorem pairwise_sorted (source : Source) (root : Node) :
    (sorted source root).uses.toList.Pairwise TemplateUse.Before := by
  have hdepth : ∀ use ∈ (walked source root).uses.toList, use.depth = 0 := fun use huse =>
    (depth_of_mem_walked (Array.mem_toList_iff.mp huse)).1
  have hbefore : ∀ use ∈ (walked source root).uses.toList,
      ∀ later ∈ (walked source root).uses.toList,
      (use.kind = .implicitInstantiation → later.kind = .implicitInstantiation) →
      use.Before later := by
    intro use huse later hlater hkind
    exact ⟨Nat.le_of_eq ((hdepth use huse).trans (hdepth later hlater).symm), fun _ => hkind⟩
  have hsplit : (sorted source root).uses.toList =
      (walked source root).uses.toList.filter (·.kind != .implicitInstantiation) ++
        (walked source root).uses.toList.filter (·.kind == .implicitInstantiation) := by
    change (explicitFirst (walked source root).uses).toList = _
    unfold explicitFirst
    rw [Array.toList_append, Array.toList_filter, Array.toList_filter]
  rw [hsplit, List.pairwise_append]
  refine ⟨?_, ?_, fun use huse later hlater => ?_⟩
  · apply List.pairwise_of_forall_mem_list
    intro use huse later hlater
    rw [List.mem_filter, bne_iff_ne] at huse hlater
    exact hbefore use huse.1 later hlater.1 fun hkind => absurd hkind huse.2
  · apply List.pairwise_of_forall_mem_list
    intro use huse later hlater
    rw [List.mem_filter, beq_iff_eq] at huse hlater
    exact hbefore use huse.1 later hlater.1 fun _ => hlater.2
  · rw [List.mem_filter, bne_iff_ne] at huse
    rw [List.mem_filter, beq_iff_eq] at hlater
    exact hbefore use huse.1 later hlater.1 fun _ => hlater.2

theorem pairwise_finalState (source : Source) (root : Node) :
    (finalState source root).uses.toList.Pairwise TemplateUse.Before := by
  obtain ⟨-, added, hadded, hascending⟩ := finalState_queue source root
  rw [hadded, List.pairwise_append]
  refine ⟨pairwise_sorted source root, ?_, fun use huse later hlater => ?_⟩
  · refine hascending.sorted.imp_of_mem fun _ hlater hdepth => ⟨hdepth, fun hzero => ?_⟩
    have hdeeper := hascending.deeper _ hlater
    omega
  · rw [Array.mem_toList_iff, mem_sorted_iff] at huse
    have hdeeper := hascending.deeper later hlater
    have hzero := (depth_of_mem_walked huse).1
    exact ⟨by omega, fun hlaterZero => by omega⟩

end WidthCheck.Lowering
