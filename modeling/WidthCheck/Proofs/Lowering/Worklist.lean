import WidthCheck.Proofs.Lowering.Queue

/-!
# Which templates are instantiated, and by which use

Working off a use attempts to instantiate each template of its name. The attempts of a whole run
are put in one list here. An earlier attempt comes from a use that is not deeper, and finds nothing
instantiated that a later one does not find as well; most of what can be said about a run follows
from these two.
-/

namespace WidthCheck.Lowering

/-- An explicit instantiation, declared or defined. -/
def TemplateUse.IsExplicit (use : TemplateUse) : Prop :=
  use.kind = .explicitInstantiationDeclaration ∨ use.kind = .explicitInstantiationDefinition

theorem TemplateUse.isExplicit_iff (use : TemplateUse) :
    use.IsExplicit ↔ use.kind.isInstantiation = true ∧ use.kind ≠ .implicitInstantiation := by
  unfold TemplateUse.IsExplicit
  cases use.kind <;> decide

/-! ## Attempts -/

/-- An attempt to instantiate the template at an index for a use, with the state it finds. -/
structure Attempt where
  use : TemplateUse
  index : Nat
  state : State

namespace Attempt

/-- The template with its arguments, if they can be deduced. -/
def pair? (a : Attempt) : Option (Nat × List QualType) :=
  (a.state.templates[a.index]?.bind (deduce · a.use)).map (a.index, ·)

/-- What is lowered in the attempt: nothing if it was instantiated before. -/
def lowered? (a : Attempt) : Option (Nat × List QualType) :=
  a.pair?.filter (!a.state.instantiated.contains ·)

/-- The state that the attempt leaves. -/
def after (source : Source) (a : Attempt) : State :=
  (tryInstantiate source a.use a.index a.state).2

theorem lowered?_eq_some_iff {a : Attempt} {pair : Nat × List QualType} :
    a.lowered? = some pair ↔ a.pair? = some pair ∧ pair ∉ a.state.instantiated := by
  unfold lowered?
  rw [Option.filter_eq_some_iff]
  simp

theorem after_of_pair?_eq_none {source : Source} {a : Attempt} (h : a.pair? = none) :
    a.after source = a.state :=
  tryInstantiate_of_none (Option.map_eq_none_iff.mp h)

theorem after_of_pair?_eq_some (source : Source) {a : Attempt} {index : Nat}
    {args : List QualType} (h : a.pair? = some (index, args)) :
    index = a.index ∧ a.after source =
      (instantiate source index args a.use.kind a.use.depth a.state).2 := by
  obtain ⟨deduced, hdeduced, heq⟩ := Option.map_eq_some_iff.mp h
  obtain ⟨rfl, rfl⟩ := Prod.mk.inj heq
  exact ⟨rfl, tryInstantiate_of_some hdeduced⟩

theorem after_eq_self {source : Source} {a : Attempt} (h : a.lowered? = none) :
    a.after source = a.state := by
  cases hpair : a.pair? with
  | none => exact after_of_pair?_eq_none hpair
  | some pair =>
    rw [(after_of_pair?_eq_some source hpair).2]
    apply instantiate_of_mem
    by_contra hmem
    rw [lowered?_eq_some_iff.mpr ⟨hpair, hmem⟩] at h
    cases h

theorem after_eq_lowerPattern (source : Source) {a : Attempt} {index : Nat}
    {args : List QualType} (h : a.lowered? = some (index, args)) :
    ∃ template, a.state.templates[index]? = some template ∧
      a.after source = (lowerPattern source template args a.use.kind a.use.depth
        { a.state with instantiated := (index, args) :: a.state.instantiated }).2 := by
  obtain ⟨hpair, hmem⟩ := lowered?_eq_some_iff.mp h
  obtain ⟨rfl, hafter⟩ := after_of_pair?_eq_some source hpair
  obtain ⟨deduced, hdeduced, -⟩ := Option.map_eq_some_iff.mp hpair
  obtain ⟨template, htemplate, -⟩ := Option.bind_eq_some_iff.mp hdeduced
  refine ⟨template, htemplate, ?_⟩
  rw [hafter, instantiate_of_not_mem hmem, htemplate]

theorem resumed (source : Source) (a : Attempt) : Resumed a.use.depth a.state (a.after source) :=
  tryInstantiate_resumed source a.use a.index a.state

theorem mem_instantiated_after (source : Source) (a : Attempt) {pair : Nat × List QualType} :
    pair ∈ (a.after source).instantiated ↔
      pair ∈ a.state.instantiated ∨ a.pair? = some pair := by
  cases hlowered : a.lowered? with
  | none =>
    rw [after_eq_self hlowered]
    refine ⟨.inl, fun h => h.elim id fun hpair => ?_⟩
    by_contra hmem
    rw [lowered?_eq_some_iff.mpr ⟨hpair, hmem⟩] at hlowered
    cases hlowered
  | some lowered =>
    obtain ⟨template, -, hafter⟩ := after_eq_lowerPattern source hlowered
    rw [hafter, lowerPattern_instantiated, (lowered?_eq_some_iff.mp hlowered).1]
    simp only [List.mem_cons, Option.some.injEq]
    exact ⟨fun h => h.elim (fun heq => .inr heq.symm) .inl,
      fun h => h.elim .inr fun heq => .inl heq.symm⟩

end Attempt

/-- The attempts that are made for a use at these indices, in order. -/
def attemptsAt (source : Source) (use : TemplateUse) : List Nat → State → List Attempt
  | [], _ => []
  | index :: rest, s =>
      ⟨use, index, s⟩ :: attemptsAt source use rest (tryInstantiate source use index s).2

/-- The attempts that are made when the next use of a queue is worked off. -/
def Queue.attempts (source : Source) (q : Queue) : List Attempt :=
  match q.use? with
  | none => []
  | some use =>
      if use.depth < instantiationLimit then
        attemptsAt source use (candidates q.state.templates use.name) q.state
      else []

/-- All attempts of a lowering, in order. -/
def attempts (source : Source) (root : Node) : List Attempt :=
  (List.range (finalState source root).uses.size).flatMap fun steps =>
    (queue source root steps).attempts source

/-- What an attempt deduces is there for a later one to find, and their uses stand in order. -/
structure Attempt.Precedes (a b : Attempt) : Prop where
  found : ∀ pair, a.pair? = some pair → pair ∈ b.state.instantiated
  before : a.use.Before b.use

section AttemptsAt

variable {source : Source} {use : TemplateUse} {indices : List Nat} {s : State} {a : Attempt}

theorem use_of_mem_attemptsAt (h : a ∈ attemptsAt source use indices s) : a.use = use := by
  induction indices generalizing s with
  | nil => cases h
  | cons index rest ih =>
    rcases List.mem_cons.mp h with rfl | h
    · rfl
    · exact ih h

theorem exists_mem_attemptsAt {index : Nat} (h : index ∈ indices) (s : State) :
    ∃ a ∈ attemptsAt source use indices s, a.use = use ∧ a.index = index := by
  induction indices generalizing s with
  | nil => cases h
  | cons first rest ih =>
    rcases List.mem_cons.mp h with rfl | h
    · exact ⟨⟨use, index, s⟩, List.mem_cons_self, rfl, rfl⟩
    · obtain ⟨a, ha, hindex⟩ := ih h (tryInstantiate source use first s).2
      exact ⟨a, List.mem_cons_of_mem _ ha, hindex⟩

-- Each attempt starts where the ones before it have left off, and the ones after it go on.
theorem resumed_attemptsAt (h : a ∈ attemptsAt source use indices s) :
    Resumed use.depth s a.state ∧
      Resumed use.depth (a.after source) (indices.forM (tryInstantiate source use) s).2 := by
  induction indices generalizing s with
  | nil => cases h
  | cons index rest ih =>
    rcases List.mem_cons.mp h with rfl | h
    · exact ⟨.refl, forM_tryInstantiate_resumed source use rest _⟩
    · obtain ⟨hbefore, hafter⟩ := ih h
      exact ⟨(tryInstantiate_resumed source use index s).trans hbefore, hafter⟩

theorem pairwise_attemptsAt (source : Source) (use : TemplateUse) (indices : List Nat)
    (s : State) : (attemptsAt source use indices s).Pairwise Attempt.Precedes := by
  induction indices generalizing s with
  | nil => exact .nil
  | cons index rest ih =>
    refine .cons (fun b hb => ⟨fun pair hpair => ?_, ?_⟩) (ih _)
    · apply (resumed_attemptsAt hb).1.instantiated
      exact (Attempt.mem_instantiated_after source ⟨use, index, s⟩).mpr (.inr hpair)
    · rw [use_of_mem_attemptsAt hb]
      exact .refl use

-- Everything that is new afterwards was lowered in one of the attempts.
theorem lowered_of_mem_instantiated {pair : Nat × List QualType}
    (h : pair ∈ (indices.forM (tryInstantiate source use) s).2.instantiated) :
    pair ∈ s.instantiated ∨ ∃ a ∈ attemptsAt source use indices s, a.lowered? = some pair := by
  induction indices generalizing s with
  | nil => exact .inl h
  | cons index rest ih =>
    rcases ih h with h | ⟨a, ha, hlowered⟩
    · by_cases hmem : pair ∈ s.instantiated
      · exact .inl hmem
      · rcases (Attempt.mem_instantiated_after source ⟨use, index, s⟩).mp h with h | hpair
        · exact .inl h
        · exact .inr ⟨⟨use, index, s⟩, List.mem_cons_self,
            Attempt.lowered?_eq_some_iff.mpr ⟨hpair, hmem⟩⟩
    · exact .inr ⟨a, List.mem_cons_of_mem _ ha, hlowered⟩

end AttemptsAt

/-! ## The attempts of one step -/

section Step

variable {source : Source} {q : Queue} {use : TemplateUse} {a : Attempt}

theorem Queue.attempts_of_lt (huse : q.use? = some use) (h : use.depth < instantiationLimit) :
    q.attempts source = attemptsAt source use (candidates q.state.templates use.name) q.state := by
  unfold Queue.attempts
  rw [huse]
  exact if_pos h

theorem Queue.of_mem_attempts (h : a ∈ q.attempts source) :
    q.use? = some a.use ∧ a.use.depth < instantiationLimit ∧
      a ∈ attemptsAt source a.use (candidates q.state.templates a.use.name) q.state := by
  unfold Queue.attempts at h
  split at h
  · cases h
  · rename_i use huse
    split at h
    · rename_i hlimit
      obtain rfl := use_of_mem_attemptsAt h
      exact ⟨huse, hlimit, h⟩
    · cases h

theorem Queue.pairwise_attempts (source : Source) (q : Queue) :
    (q.attempts source).Pairwise Attempt.Precedes := by
  unfold Queue.attempts
  split
  · exact .nil
  · split
    · exact pairwise_attemptsAt source _ _ _
    · exact .nil

theorem Queue.resumed_of_mem_attempts (h : a ∈ q.attempts source) :
    Resumed a.use.depth q.state a.state ∧
      Resumed a.use.depth (a.after source) (q.step source).state := by
  obtain ⟨huse, hlimit, hmem⟩ := Queue.of_mem_attempts h
  rw [Queue.step_of_lt huse hlimit]
  exact resumed_attemptsAt hmem

theorem Queue.lowered_of_mem_step {pair : Nat × List QualType}
    (h : pair ∈ (q.step source).state.instantiated) :
    pair ∈ q.state.instantiated ∨ ∃ a ∈ q.attempts source, a.lowered? = some pair := by
  cases huse : q.use? with
  | none =>
    rw [Queue.step_eq_self huse] at h
    exact .inl h
  | some use =>
    by_cases hlimit : use.depth < instantiationLimit
    · rw [Queue.step_of_lt huse hlimit] at h
      rw [Queue.attempts_of_lt huse hlimit]
      exact lowered_of_mem_instantiated h
    · rw [Queue.step_of_le huse (Nat.not_lt.mp hlimit)] at h
      exact .inl h

end Step

/-! ## The attempts of a run -/

section Run

variable {source : Source} {root : Node} {a b : Attempt} {pair : Nat × List QualType}

theorem mem_attempts_iff : a ∈ attempts source root ↔
    ∃ steps < (finalState source root).uses.size,
      a ∈ (queue source root steps).attempts source := by
  unfold attempts
  rw [List.mem_flatMap]
  simp only [List.mem_range]

theorem use_mem_finalState (h : a ∈ attempts source root) :
    a.use ∈ (finalState source root).uses := by
  obtain ⟨steps, hsteps, hmem⟩ := mem_attempts_iff.mp h
  have huse := (Queue.of_mem_attempts hmem).1
  rw [queue_use? hsteps] at huse
  exact Array.mem_of_getElem? huse

-- Attempts of different steps are in order because their uses are, and because what the earlier
-- step has instantiated stays so until the later one.
theorem precedes_of_lt {earlier later : Nat} (hlt : earlier < later)
    (hlater : later < (finalState source root).uses.size)
    (ha : a ∈ (queue source root earlier).attempts source)
    (hb : b ∈ (queue source root later).attempts source) : a.Precedes b := by
  constructor
  · intro pair hpair
    have hafter := (Attempt.mem_instantiated_after source a).mpr (.inr hpair)
    have hstep := (Queue.resumed_of_mem_attempts ha).2.instantiated hafter
    rw [← queue_succ] at hstep
    have hrun := queue_instantiated_subset source root (earlier + 1) (later - (earlier + 1)) hstep
    rw [Nat.add_sub_of_le hlt] at hrun
    exact (Queue.resumed_of_mem_attempts hb).1.instantiated hrun
  · have hause := (Queue.of_mem_attempts ha).1
    have hbuse := (Queue.of_mem_attempts hb).1
    rw [queue_use? (Nat.lt_trans hlt hlater), ← Array.getElem?_toList,
      List.getElem?_eq_some_iff] at hause
    rw [queue_use? hlater, ← Array.getElem?_toList, List.getElem?_eq_some_iff] at hbuse
    obtain ⟨hearlierBound, hearlierUse⟩ := hause
    obtain ⟨hlaterBound, hlaterUse⟩ := hbuse
    rw [← hearlierUse, ← hlaterUse]
    exact List.pairwise_iff_getElem.mp (pairwise_finalState source root) earlier later
      hearlierBound hlaterBound hlt

theorem pairwise_attempts (source : Source) (root : Node) :
    (attempts source root).Pairwise Attempt.Precedes := by
  unfold attempts
  rw [List.pairwise_flatMap]
  refine ⟨fun steps _ => Queue.pairwise_attempts source _, ?_⟩
  refine List.pairwise_lt_range.imp_of_mem fun hearlier hlater hlt a ha b hb => ?_
  exact precedes_of_lt hlt (List.mem_range.mp hlater) ha hb

-- Of an attempt that lowers a pair and one that deduces it, the first comes first.
theorem eq_or_precedes (ha : a ∈ attempts source root) (hb : b ∈ attempts source root)
    (hpair : a.pair? = some pair) (hlowered : b.lowered? = some pair) :
    b = a ∨ b.Precedes a := by
  obtain ⟨i, hi, rfl⟩ := List.getElem_of_mem ha
  obtain ⟨j, hj, rfl⟩ := List.getElem_of_mem hb
  have horder := List.pairwise_iff_getElem.mp (pairwise_attempts source root)
  rcases Nat.lt_trichotomy i j with hlt | rfl | hlt
  · have hfound := (horder i j hi hj hlt).found pair hpair
    exact absurd hfound (Attempt.lowered?_eq_some_iff.mp hlowered).2
  · exact .inl rfl
  · exact .inr (horder j i hj hi hlt)

theorem lowered_of_mem_queue {steps : Nat} (hsteps : steps ≤ (finalState source root).uses.size)
    (h : pair ∈ (queue source root steps).state.instantiated) :
    ∃ b ∈ attempts source root, b.lowered? = some pair := by
  induction steps with
  | zero =>
    -- The walk instantiates nothing.
    have hnone : (walked source root).instantiated = [] :=
      (walked_effect source root).kept.instantiated
    change pair ∈ (walked source root).instantiated at h
    rw [hnone] at h
    cases h
  | succ steps ih =>
    rw [queue_succ] at h
    rcases Queue.lowered_of_mem_step h with h | ⟨b, hb, hlowered⟩
    · exact ih (Nat.le_of_succ_le hsteps) h
    · exact ⟨b, mem_attempts_iff.mpr ⟨steps, hsteps, hb⟩, hlowered⟩

theorem mem_instantiated_finalState (ha : a ∈ attempts source root)
    (hpair : a.pair? = some pair) : pair ∈ (finalState source root).instantiated := by
  obtain ⟨steps, hsteps, hmem⟩ := mem_attempts_iff.mp ha
  have hafter := (Attempt.mem_instantiated_after source a).mpr (.inr hpair)
  have hstep := (Queue.resumed_of_mem_attempts hmem).2.instantiated hafter
  rw [← queue_succ] at hstep
  have hrun := queue_instantiated_subset source root (steps + 1)
    ((finalState source root).uses.size - (steps + 1)) hstep
  rw [Nat.add_sub_of_le hsteps, queue_state_end] at hrun
  exact hrun

end Run

/-! ## What a run does -/

theorem mem_candidates_iff {templates : List FunctionTemplate} {name : String} {index : Nat} :
    index ∈ candidates templates name ↔
      ∃ template, templates[index]? = some template ∧ template.name = name := by
  unfold candidates
  simp only [List.mem_map, List.mem_filter, beq_iff_eq, Prod.exists, List.mem_zipIdx_iff_getElem?]
  constructor
  · rintro ⟨template, _, ⟨htemplate, hname⟩, rfl⟩
    exact ⟨template, htemplate, hname⟩
  · rintro ⟨template, htemplate, hname⟩
    exact ⟨template, index, ⟨htemplate, hname⟩, rfl⟩

/-- Working off the uses of a tree comes to its end, level by level. Each pair of a template and its
arguments is lowered once, at the least depth and for an explicit instantiation if there is one. -/
structure WorksOff (source : Source) (root : Node) : Prop where
  /-- The queue ends with the state of the whole lowering. -/
  ends : queue source root (finalState source root).uses.size =
    ⟨(finalState source root).uses.size, finalState source root⟩
  walkedDepth : ∀ use ∈ (walked source root).uses, use.depth = 0
  addedDepth : ∀ steps use, (queue source root steps).use? = some use →
    Appends (fun added => added.depth = use.depth + 1)
      (queue source root steps).state.uses.toList (queue source root (steps + 1)).state.uses.toList
  ascending : (finalState source root).uses.toList.Pairwise (·.depth ≤ ·.depth)
  limited : ∀ use ∈ (finalState source root).uses, use.depth ≤ instantiationLimit
  passedOver : ∀ steps use, (queue source root steps).use? = some use →
    use.depth = instantiationLimit →
    (queue source root (steps + 1)).state = (queue source root steps).state
  /-- No pair is lowered twice. -/
  loweredOnce : ((attempts source root).filterMap Attempt.lowered?).Nodup
  /-- An attempt does nothing but lower the pattern of its template with the deduced arguments. -/
  lowers : ∀ a ∈ attempts source root,
    match a.lowered? with
    | some (index, args) => ∃ template, a.state.templates[index]? = some template ∧
        a.after source = (lowerPattern source template args a.use.kind a.use.depth
          { a.state with instantiated := (index, args) :: a.state.instantiated }).2
    | none => a.after source = a.state
  /-- A use that is not at the limit attempts each template of its name. -/
  attempted : ∀ steps use, (queue source root steps).use? = some use →
    use.depth < instantiationLimit →
    ∀ index template, (queue source root steps).state.templates[index]? = some template →
      template.name = use.name →
      ∃ a ∈ (queue source root steps).attempts source,
        a ∈ attempts source root ∧ a.use = use ∧ a.index = index
  instantiated : ∀ a ∈ attempts source root, ∀ pair, a.pair? = some pair →
    pair ∈ (finalState source root).instantiated ∧
      ∃ b ∈ attempts source root, b.lowered? = some pair
  leastDepth : ∀ a ∈ attempts source root, ∀ b ∈ attempts source root, ∀ pair,
    a.pair? = some pair → b.lowered? = some pair → b.use.depth ≤ a.use.depth
  explicitFirst : ∀ a ∈ attempts source root, ∀ b ∈ attempts source root, ∀ pair,
    a.pair? = some pair → a.use ∈ (walked source root).uses → a.use.IsExplicit →
    b.lowered? = some pair → b.use.IsExplicit

section Run

variable {source : Source} {root : Node} {a b : Attempt} {pair : Nat × List QualType}

theorem nodup_lowered (source : Source) (root : Node) :
    ((attempts source root).filterMap Attempt.lowered?).Nodup := by
  refine (pairwise_attempts source root).filterMap _ ?_
  rintro a b hprecedes first hfirst second hsecond rfl
  have hpair := (Attempt.lowered?_eq_some_iff.mp hfirst).1
  exact (Attempt.lowered?_eq_some_iff.mp hsecond).2 (hprecedes.found _ hpair)

theorem attempt_lowers (source : Source) (a : Attempt) :
    match a.lowered? with
    | some (index, args) => ∃ template, a.state.templates[index]? = some template ∧
        a.after source = (lowerPattern source template args a.use.kind a.use.depth
          { a.state with instantiated := (index, args) :: a.state.instantiated }).2
    | none => a.after source = a.state := by
  split
  · rename_i index args hlowered
    exact Attempt.after_eq_lowerPattern source hlowered
  · rename_i hlowered
    exact Attempt.after_eq_self hlowered

theorem finalState_limited {use : TemplateUse} (h : use ∈ (finalState source root).uses) :
    use.depth ≤ instantiationLimit ∧ (use.depth = 0 → use ∈ (walked source root).uses) := by
  obtain ⟨-, added, hadded, hascending⟩ := finalState_queue source root
  rw [← Array.mem_toList_iff, hadded, List.mem_append, Array.mem_toList_iff, mem_sorted_iff] at h
  rcases h with h | h
  · exact ⟨by rw [(depth_of_mem_walked h).1]; exact Nat.zero_le _, fun _ => h⟩
  · refine ⟨hascending.limited use h, fun hzero => ?_⟩
    have hdeeper := hascending.deeper use h
    omega

theorem exists_attempt {steps : Nat} {use : TemplateUse}
    (huse : (queue source root steps).use? = some use) (hlimit : use.depth < instantiationLimit)
    {index : Nat} {template : FunctionTemplate}
    (htemplate : (queue source root steps).state.templates[index]? = some template)
    (hname : template.name = use.name) :
    ∃ a ∈ (queue source root steps).attempts source,
      a ∈ attempts source root ∧ a.use = use ∧ a.index = index := by
  have hindex := mem_candidates_iff.mpr ⟨template, htemplate, hname⟩
  obtain ⟨a, ha, hause, haindex⟩ := exists_mem_attemptsAt hindex (queue source root steps).state
  rw [← Queue.attempts_of_lt huse hlimit] at ha
  exact ⟨a, ha, mem_attempts_iff.mpr ⟨steps, lt_size_of_queue_use? huse, ha⟩, hause, haindex⟩

theorem explicit_of_lowered (ha : a ∈ attempts source root) (hb : b ∈ attempts source root)
    (hpair : a.pair? = some pair) (hwalked : a.use ∈ (walked source root).uses)
    (hexplicit : a.use.IsExplicit) (hlowered : b.lowered? = some pair) : b.use.IsExplicit := by
  rcases eq_or_precedes ha hb hpair hlowered with rfl | hprecedes
  · exact hexplicit
  have hzero := (depth_of_mem_walked hwalked).1
  have hbzero : b.use.depth = 0 := by
    have hdepth := hprecedes.before.depth
    omega
  have hbwalked := (finalState_limited (use_mem_finalState hb)).2 hbzero
  have hkind := (depth_of_mem_walked hbwalked).2
  have hnot : b.use.kind ≠ .implicitInstantiation := by
    intro himplicit
    have hauseImplicit := hprecedes.before.explicit hzero himplicit
    exact (a.use.isExplicit_iff.mp hexplicit).2 hauseImplicit
  exact b.use.isExplicit_iff.mpr ⟨hkind, hnot⟩

theorem worksOff (source : Source) (root : Node) : WorksOff source root where
  ends := (finalState_queue source root).1
  walkedDepth _ huse := (depth_of_mem_walked huse).1
  addedDepth steps use huse := by
    rw [queue_succ]
    exact (Queue.step_resumed source huse).uses.mono fun _ hadded => hadded.1
  ascending := (pairwise_finalState source root).imp fun hbefore => hbefore.depth
  limited _ huse := (finalState_limited huse).1
  passedOver steps use huse hlimit := by
    rw [queue_succ, Queue.step_of_le huse (Nat.le_of_eq hlimit.symm)]
  loweredOnce := nodup_lowered source root
  lowers a _ := attempt_lowers source a
  attempted _ _ huse hlimit _ _ htemplate hname := exists_attempt huse hlimit htemplate hname
  instantiated a ha pair hpair := by
    have hmem := mem_instantiated_finalState ha hpair
    refine ⟨hmem, lowered_of_mem_queue (Nat.le_refl _) ?_⟩
    rw [queue_state_end]
    exact hmem
  leastDepth a ha b hb pair hpair hlowered := by
    rcases eq_or_precedes ha hb hpair hlowered with rfl | hprecedes
    · exact Nat.le_refl _
    · exact hprecedes.before.depth
  explicitFirst _ ha _ hb _ hpair hwalked hexplicit hlowered :=
    explicit_of_lowered ha hb hpair hwalked hexplicit hlowered

end Run

end WidthCheck.Lowering
