import WidthCheck.Proofs.Lowering.Worklist

/-!
# Invariants of a lowering

A condition on states holds in the end if the walk brings it about and every instantiation keeps it.
The induction along the queue of uses is made once, here; and once more for relations between the
state that an instantiation finds and the one it leaves.
-/

namespace WidthCheck.Lowering

/-- Every instantiation keeps `inv`. It may rely on `good`, which `inv` grants of each use that is
recorded. -/
structure Maintains (source : Source) (inv : State → Prop) (good : TemplateUse → Prop) :
    Prop where
  good_of_mem : ∀ {s : State} {use : TemplateUse}, inv s → use ∈ s.uses → good use
  lowerPattern : ∀ {s : State} {use : TemplateUse} {index : Nat} {template : FunctionTemplate}
    {args : List QualType}, inv s → good use → s.templates[index]? = some template →
    deduce template use = some args →
    inv (lowerPattern source template args use.kind use.depth
      { s with instantiated := (index, args) :: s.instantiated }).2

namespace Maintains

variable {source : Source} {inv : State → Prop} {good : TemplateUse → Prop}

theorem attempt (h : Maintains source inv good) (a : Attempt) (huse : good a.use)
    (hs : inv a.state) : inv (a.after source) := by
  cases hlowered : a.lowered? with
  | none =>
    rw [Attempt.after_eq_self hlowered]
    exact hs
  | some pair =>
    obtain ⟨template, htemplate, hafter⟩ := Attempt.after_eq_lowerPattern source hlowered
    have hpair := (Attempt.lowered?_eq_some_iff.mp hlowered).1
    obtain ⟨args, hargs, rfl⟩ := Option.map_eq_some_iff.mp hpair
    rw [htemplate, Option.bind_some] at hargs
    rw [hafter]
    exact h.lowerPattern hs huse htemplate hargs

theorem attempts (h : Maintains source inv good) {use : TemplateUse} (huse : good use)
    (indices : List Nat) {s : State} (hs : inv s) :
    inv (indices.forM (tryInstantiate source use) s).2 := by
  induction indices generalizing s with
  | nil => exact hs
  | cons index rest ih => exact ih (h.attempt ⟨use, index, s⟩ huse hs)

theorem step (h : Maintains source inv good) {q : Queue} {use : TemplateUse}
    (huse : q.use? = some use) (hs : inv q.state) : inv (q.step source).state := by
  by_cases hlimit : use.depth < instantiationLimit
  · have hgood : good use := h.good_of_mem hs (Array.mem_of_getElem? huse)
    rw [Queue.step_of_lt huse hlimit]
    exact h.attempts hgood (candidates q.state.templates use.name) hs
  · rw [Queue.step_of_le huse (Nat.not_lt.mp hlimit)]
    exact hs

theorem queue (h : Maintains source inv good) {root : Node}
    (hsorted : inv (sorted source root)) (steps : Nat) :
    inv (queue source root steps).state := by
  have hrun := queue_related source root (R := fun s t => inv s → inv t)
    (fun _ hs => hs) (fun _ _ _ hfirst hsecond hs => hsecond (hfirst hs))
    (fun _ _ huse => h.step huse) 0 steps
  rw [Nat.zero_add] at hrun
  exact hrun hsorted

theorem finalState (h : Maintains source inv good) {root : Node}
    (hsorted : inv (sorted source root)) : inv (finalState source root) := by
  have hrun := h.queue hsorted (Lowering.finalState source root).uses.size
  rwa [queue_state_end] at hrun

-- Each attempt starts where the ones before it have left off.
theorem of_mem_attemptsAt (h : Maintains source inv good) {use : TemplateUse} (huse : good use)
    {indices : List Nat} {s : State} (hs : inv s) {a : Attempt}
    (ha : a ∈ attemptsAt source use indices s) : inv a.state := by
  induction indices generalizing s with
  | nil => cases ha
  | cons index rest ih =>
    rcases List.mem_cons.mp ha with rfl | ha
    · exact hs
    · exact ih (h.attempt ⟨use, index, s⟩ huse hs) ha

theorem of_mem_attempts (h : Maintains source inv good) {root : Node}
    (hsorted : inv (sorted source root)) {a : Attempt}
    (ha : a ∈ Lowering.attempts source root) : inv a.state := by
  obtain ⟨steps, -, hmem⟩ := mem_attempts_iff.mp ha
  obtain ⟨huse, -, hat⟩ := Queue.of_mem_attempts hmem
  have hqueue := h.queue hsorted steps
  exact h.of_mem_attemptsAt (h.good_of_mem hqueue (Array.mem_of_getElem? huse)) hqueue hat

end Maintains

/-! ## Relations between states -/

/-- Every instantiation relates the state it finds to the one it leaves. -/
structure Carries (source : Source) (R : State → State → Prop) : Prop where
  refl : ∀ s, R s s
  trans : ∀ {s t u : State}, R s t → R t u → R s u
  lowerPattern : ∀ (s : State) (index : Nat) (args : List QualType) (template : FunctionTemplate)
    (kind : Specialization) (depth : Nat),
    R s (lowerPattern source template args kind depth
      { s with instantiated := (index, args) :: s.instantiated }).2

namespace Carries

variable {source : Source} {R : State → State → Prop}

theorem attempt (h : Carries source R) (a : Attempt) : R a.state (a.after source) := by
  cases hlowered : a.lowered? with
  | none =>
    rw [Attempt.after_eq_self hlowered]
    exact h.refl _
  | some pair =>
    obtain ⟨template, -, hafter⟩ := Attempt.after_eq_lowerPattern source hlowered
    rw [hafter]
    exact h.lowerPattern _ _ _ _ _ _

theorem attempts (h : Carries source R) (use : TemplateUse) (indices : List Nat) (s : State) :
    R s (indices.forM (tryInstantiate source use) s).2 := by
  induction indices generalizing s with
  | nil => exact h.refl s
  | cons index rest ih => exact h.trans (h.attempt ⟨use, index, s⟩) (ih _)

theorem step (h : Carries source R) {q : Queue} {use : TemplateUse} (huse : q.use? = some use) :
    R q.state (q.step source).state := by
  by_cases hlimit : use.depth < instantiationLimit
  · rw [Queue.step_of_lt huse hlimit]
    exact h.attempts use (candidates q.state.templates use.name) q.state
  · rw [Queue.step_of_le huse (Nat.not_lt.mp hlimit)]
    exact h.refl _

theorem queue (h : Carries source R) (root : Node) (steps more : Nat) :
    R (queue source root steps).state (queue source root (steps + more)).state :=
  queue_related source root h.refl (fun _ _ _ => h.trans) (fun _ _ => h.step) steps more

-- Each attempt starts where the ones before it have left off, and the ones after it go on.
theorem of_mem_attemptsAt (h : Carries source R) {use : TemplateUse} {indices : List Nat}
    {s : State} {a : Attempt} (ha : a ∈ attemptsAt source use indices s) :
    R s a.state ∧ R (a.after source) (indices.forM (tryInstantiate source use) s).2 := by
  induction indices generalizing s with
  | nil => cases ha
  | cons index rest ih =>
    rcases List.mem_cons.mp ha with rfl | ha
    · exact ⟨h.refl s, h.attempts use rest _⟩
    · obtain ⟨hbefore, hafter⟩ := ih ha
      exact ⟨h.trans (h.attempt ⟨use, index, s⟩) hbefore, hafter⟩

theorem of_mem_attempts (h : Carries source R) {root : Node} {a : Attempt}
    (ha : a ∈ Lowering.attempts source root) :
    R (sorted source root) a.state ∧ R a.state (finalState source root) := by
  obtain ⟨steps, hsteps, hmem⟩ := mem_attempts_iff.mp ha
  obtain ⟨huse, hlimit, hat⟩ := Queue.of_mem_attempts hmem
  obtain ⟨hbefore, hafter⟩ := h.of_mem_attemptsAt hat
  have hfirst := h.queue root 0 steps
  rw [Nat.zero_add] at hfirst
  have hlast := h.queue root (steps + 1) ((finalState source root).uses.size - (steps + 1))
  rw [Nat.add_sub_of_le hsteps, queue_state_end, queue_succ, Queue.step_of_lt huse hlimit] at hlast
  exact ⟨h.trans hfirst hbefore, h.trans (h.attempt a) (h.trans hafter hlast)⟩

end Carries

end WidthCheck.Lowering
