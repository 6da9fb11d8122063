import WidthCheck.Proofs.Lowering.Worklist

/-!
# Which contexts are instantiations

Only a function can be marked as an instantiation, and only the first one that comes after the mark
has been set. So each instantiation marks one context at most, however many its pattern opens.
-/

namespace WidthCheck.Lowering

/-- The number of contexts that are marked as instantiations, counting one that is still to come. -/
def State.marks (s : State) : Nat :=
  s.unit.contexts.toList.countP (·.specialization.isInstantiation) +
    s.specialization.isInstantiation.toNat

variable {P : QualType → Prop} {scope : Scope} {s t : State}

-- Opening a context of another kind than a function does not use the mark.
theorem marks_opened (s : State) (scope : Scope) (kind : ContextKind) (name : String)
    (frames : List Bindings) :
    State.marks { s.opened scope kind name .undeclared with frames := frames } = s.marks := by
  simp [State.marks, State.opened, CompilationUnit.addContext, Specialization.isInstantiation]

theorem marks_functionOpened (s : State) (scope : Scope) (decl : FunctionDecl) :
    (s.functionOpened scope decl).marks = s.marks := by
  unfold State.marks State.functionOpened State.opened CompilationUnit.addContext
    CompilationUnit.addEntity
  rw [Array.toList_push, List.countP_append, List.countP_singleton]
  cases s.specialization.isInstantiation <;> rfl

theorem Update.marks_eq (h : Update P scope s t) : t.marks = s.marks := by
  cases h <;> rfl

theorem CallOperator.marks_eq {index : Nat} (h : CallOperator P index s t) : t.marks = s.marks := by
  cases h <;> rfl

theorem Registration.marks_eq {pending : Option (List TemplateParam)}
    (h : Registration P scope pending s t) : t.marks = s.marks := by
  cases h <;> rfl

theorem Effect.marks_le (h : Effect P scope s t) : t.marks ≤ s.marks := by
  induction h with
  | refl => exact Nat.le_refl _
  | trans _ _ ihFirst ihSecond => exact Nat.le_trans ihSecond ihFirst
  | update h => exact Nat.le_of_eq h.marks_eq
  | block _ ih | typeParams _ _ ih | template _ _ _ ih => exact ih
  | namespaceBody _ _ ih | record _ _ ih =>
    exact Nat.le_trans ih (Nat.le_of_eq (marks_opened _ _ _ _ _))
  | lambda _ operator _ ihResult ihBody =>
    rw [operator.marks_eq] at ihBody
    have hinside := Nat.le_trans ihBody ihResult
    exact Nat.le_trans hinside (Nat.le_of_eq (marks_opened _ _ _ _ _))
  | function decl _ _ _ _ registration _ ihParams ihBody =>
    rw [registration.marks_eq] at ihBody
    have hinside := Nat.le_trans ihBody ihParams
    exact Nat.le_trans hinside (Nat.le_of_eq (marks_functionOpened _ _ _))
  | specialization _ ih =>
    -- The mark is put aside while the specialization is walked, and put back.
    have hcount := Nat.le_trans (Nat.le_add_right _ _) ih
    exact Nat.add_le_add_right hcount _

/-! ## Walks and instantiations -/

/-- Whether the context at an index is marked as an instantiation. -/
def State.IsMarked (s : State) (index : Nat) : Prop :=
  ∃ context, s.unit.contexts[index]? = some context ∧
    context.specialization.isInstantiation = true

-- Two marked contexts that have been added would make two new marks.
theorem eq_of_countP_le {α : Type} {p : α → Bool} {l m : List α} (hextends : l <+: m)
    (hcount : m.countP p ≤ l.countP p + 1) {i j : Nat} {a b : α}
    (hi : l.length ≤ i) (hj : l.length ≤ j) (ha : m[i]? = some a) (hb : m[j]? = some b)
    (hpa : p a = true) (hpb : p b = true) : i = j := by
  obtain ⟨added, rfl⟩ := hextends
  rw [List.countP_append] at hcount
  rw [List.getElem?_append_right hi] at ha
  rw [List.getElem?_append_right hj] at hb
  have hapart : ∀ (x y : Nat) (c d : α), x < y → added[x]? = some c → added[y]? = some d →
      p c = true → p d = true → False := by
    intro x y c d hlt hc hd hpc hpd
    have hfirst : 0 < (added.take y).countP p := by
      rw [List.countP_pos_iff]
      exact ⟨c, List.mem_of_getElem? (by rw [List.getElem?_take_of_lt hlt]; exact hc), hpc⟩
    have hsecond : 0 < (added.drop y).countP p := by
      rw [List.countP_pos_iff]
      exact ⟨d, List.mem_of_getElem? (i := 0) (by rw [List.getElem?_drop]; exact hd), hpd⟩
    have hsum : added.countP p = (added.take y).countP p + (added.drop y).countP p := by
      rw [← List.countP_append, List.take_append_drop]
    omega
  rcases Nat.lt_trichotomy (i - l.length) (j - l.length) with h | h | h
  · exact (hapart _ _ a b h ha hb hpa hpb).elim
  · omega
  · exact (hapart _ _ b a h hb ha hpb hpa).elim

theorem walked_not_isMarked (source : Source) (root : Node) (index : Nat) :
    ¬ (walked source root).IsMarked index := by
  rintro ⟨context, hcontext, hmark⟩
  have hmarks := (walked_effect source root).marks_le
  have hstart : State.marks {} = 0 := by decide
  have hcount : 0 < (walked source root).unit.contexts.toList.countP
      (·.specialization.isInstantiation) := by
    rw [List.countP_pos_iff]
    rw [← Array.getElem?_toList] at hcontext
    exact ⟨context, List.mem_of_getElem? hcontext, hmark⟩
  unfold State.marks at hmarks hstart
  omega

/-- The context at an index is opened in an attempt. -/
def Attempt.Opens (source : Source) (a : Attempt) (index : Nat) : Prop :=
  a.state.unit.contexts.size ≤ index ∧ index < (a.after source).unit.contexts.size

-- An attempt marks one of the contexts that it opens at most.
theorem Attempt.eq_of_isMarked (source : Source) (a : Attempt) {i j : Nat}
    (hi : a.Opens source i) (hj : a.Opens source j)
    (hmi : (a.after source).IsMarked i) (hmj : (a.after source).IsMarked j) : i = j := by
  obtain ⟨first, hfirst, hmarkFirst⟩ := hmi
  obtain ⟨second, hsecond, hmarkSecond⟩ := hmj
  rw [← Array.getElem?_toList] at hfirst hsecond
  refine eq_of_countP_le (p := (·.specialization.isInstantiation)) (a.resumed source).contexts
    ?_ hi.1 hj.1 hfirst hsecond hmarkFirst hmarkSecond
  cases hlowered : a.lowered? with
  | none =>
    rw [Attempt.after_eq_self hlowered]
    exact Nat.le_succ _
  | some pair =>
    obtain ⟨template, -, hafter⟩ := Attempt.after_eq_lowerPattern source hlowered
    obtain ⟨t, heffect, hrun⟩ := lowerPattern_effect source template pair.2 a.use.kind a.use.depth
      { a.state with instantiated := pair :: a.state.instantiated }
    have hmarks := heffect.marks_le
    have hbit := Bool.toNat_le a.use.kind.isInstantiation
    rw [hafter, hrun]
    unfold State.marks at hmarks
    dsimp only at hmarks ⊢
    omega

-- What the contexts are when they are opened, they are in the end.
theorem contexts_prefix_finalState {source : Source} {root : Node} {a : Attempt}
    (h : a ∈ attempts source root) :
    (a.after source).unit.contexts.toList <+: (finalState source root).unit.contexts.toList := by
  obtain ⟨steps, hsteps, hmem⟩ := mem_attempts_iff.mp h
  have hstep := (Queue.resumed_of_mem_attempts hmem).2.contexts
  have hrun := queue_contexts_prefix source root (steps + 1)
    ((finalState source root).uses.size - (steps + 1))
  rw [Nat.add_sub_of_le hsteps, queue_state_end, queue_succ] at hrun
  exact hstep.trans hrun

theorem walked_prefix_finalState (source : Source) (root : Node) :
    (walked source root).unit.contexts.toList <+:
      (finalState source root).unit.contexts.toList := by
  have hrun := queue_contexts_prefix source root 0 (finalState source root).uses.size
  rw [Nat.zero_add, queue_state_end] at hrun
  exact hrun

theorem isMarked_of_extends (hextends : s.unit.contexts.toList <+: t.unit.contexts.toList)
    {index : Nat} (hindex : index < s.unit.contexts.size) (h : t.IsMarked index) :
    s.IsMarked index := by
  obtain ⟨context, hcontext, hmark⟩ := h
  obtain ⟨later, hlater⟩ := hextends
  refine ⟨context, ?_, hmark⟩
  rw [← Array.getElem?_toList, ← hlater, List.getElem?_append_left hindex,
    Array.getElem?_toList] at hcontext
  exact hcontext

end WidthCheck.Lowering
