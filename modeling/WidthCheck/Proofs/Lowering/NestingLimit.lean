import WidthCheck.Proofs.Lowering.WalkMirror

/-!
# The limit of nesting

A traversal enters one level more with each node that it visits and leaves it again, until `descend`
refuses. So a traverser with more levels than the limit allows mirrors the walker for the levels
that are left, however many more it has.
-/

namespace WidthCheck.Lowering

namespace Traversal

variable {node : Node} {t : Traversal}

theorem descend_of_lt (h : t.nesting < nestingLimit) :
    descend node t = (true, { t with
      nesting := t.nesting + 1
      deepest := max t.deepest (t.nesting + 1) }) := by
  change (if nestingLimit ≤ t.nesting then _ else _ : Traverse Bool) t = _
  rw [if_neg (Nat.not_le.mpr h)]
  rfl

theorem descend_of_warned (h : nestingLimit ≤ t.nesting) (hexceeded : t.nestingExceeded = true) :
    descend node t = (false, t) := by
  change (if nestingLimit ≤ t.nesting then _ else _ : Traverse Bool) t = _
  rw [if_pos h, hexceeded]
  rfl

theorem descend_of_unwarned (h : nestingLimit ≤ t.nesting)
    (hexceeded : t.nestingExceeded = false) :
    descend node t = (false, { t with
      nestingExceeded := true
      warnings := t.warnings ++ [t.source.lineAt node.span.start] }) := by
  change (if nestingLimit ≤ t.nesting then _ else _ : Traverse Bool) t = _
  rw [if_pos h, hexceeded]
  rfl

theorem Bounded.warnings_le (h : t.Bounded) : t.warnings.length ≤ 1 := by
  rw [h.warnings_eq]
  exact Bool.toNat_le _

-- The state knows the first warning, which is the only one.
theorem Bounded.tooDeepAt_of_warned (h : t.Bounded) (hexceeded : t.nestingExceeded = true) :
    ∃ line, t.state.tooDeepAt = some line := by
  have hone : t.warnings.length = 1 := by
    rw [h.warnings_eq, hexceeded]
    rfl
  obtain ⟨line, hwarnings⟩ := List.length_eq_one_iff.mp hone
  exact ⟨line, congrArg List.head? hwarnings⟩

theorem Bounded.warnings_of_unwarned (h : t.Bounded) (hexceeded : t.nestingExceeded = false) :
    t.warnings = [] := by
  apply List.eq_nil_of_length_eq_zero
  rw [h.warnings_eq, hexceeded]
  rfl

end Traversal

/-! ## One level -/

namespace Origins

variable {K : Origins} {nesting : Nat} {p : Stand} {hands : Traverser} {below : Walker}

-- Below the limit a level is entered before the step and left after it.
theorem Mirrors.level {α : Type} {node : Node} {step refused : Traverse α} {walk : Lowering α}
    {post : α → Prop} (hlt : nesting < nestingLimit)
    (h : K.Mirrors (nesting + 1) p p step walk post) :
    K.Mirrors nesting p p
      (do
        if ← Traversal.descend node then
          let result ← step
          Traversal.ascend
          return result
        else refused) walk post := by
  intro t ht
  have hnesting : t.nesting < nestingLimit := ht.nesting_eq ▸ hlt
  let entered : Traversal := { t with
    nesting := t.nesting + 1
    deepest := max t.deepest (t.nesting + 1) }
  have hentered : K.Stands (nesting + 1) p entered :=
    { ht with
      nesting_le := hnesting
      deepest_le := Nat.max_le.mpr ⟨ht.deepest_le, hnesting⟩
      nesting_eq := congrArg Nat.succ ht.nesting_eq }
  obtain ⟨hresult, hstate, hstands, hpost⟩ := h entered hentered
  have hrun : (do
      if ← Traversal.descend node then
        let result ← step
        Traversal.ascend
        return result
      else refused : Traverse α) t =
      ((step entered).1, { (step entered).2 with nesting := (step entered).2.nesting - 1 }) := by
    change (if (Traversal.descend node t).1 then _ else _ : Traverse α)
      (Traversal.descend node t).2 = _
    rw [Traversal.descend_of_lt hnesting]
    rfl
  have hback : (step entered).2.nesting - 1 = nesting := by
    rw [hstands.nesting_eq]
    rfl
  rw [hrun]
  refine ⟨hresult, hstate, { hstands with nesting_le := ?_, nesting_eq := hback }, hpost⟩
  exact Nat.le_trans (Nat.sub_le _ _) hstands.nesting_le

-- At the limit the node is refused. The warning is given unless it was given before.
theorem descend_refused (node : Node) (hle : nestingLimit ≤ nesting) :
    K.Mirrors nesting p p (Traversal.descend node)
      (do noteTooDeep (K.view p) node; return false) (· = false) := by
  intro t ht
  have hlimit : nestingLimit ≤ t.nesting := ht.nesting_eq ▸ hle
  have hsource : t.source = K.pair.left := congrArg Scope.source ht.scope_eq
  cases hexceeded : t.nestingExceeded with
  | true =>
    obtain ⟨line, hnoted⟩ := ht.tooDeepAt_of_warned hexceeded
    have hsame : { t.state with
        tooDeepAt := t.state.tooDeepAt.or (some (K.pair.right.lineAt node.span.start)) } =
        t.state := by
      rw [hnoted, Option.some_or, ← hnoted]
    rw [Traversal.descend_of_warned hlimit hexceeded]
    exact ⟨rfl, hsame.symm, ht, rfl⟩
  | false =>
    have hnone := ht.warnings_of_unwarned hexceeded
    have hnoted : t.state.tooDeepAt = none := congrArg List.head? hnone
    have hadded : t.warnings ++ [t.source.lineAt node.span.start] =
        [K.pair.right.lineAt node.span.start] := by
      rw [hnone, hsource, K.pair.sameLines.lineAt_eq]
      rfl
    have hsame : { t.state with
        tooDeepAt := t.state.tooDeepAt.or (some (K.pair.right.lineAt node.span.start)) } =
        { t.state with tooDeepAt := some (K.pair.right.lineAt node.span.start) } := by
      rw [hnoted, Option.none_or]
    rw [Traversal.descend_of_unwarned hlimit hexceeded, hadded]
    exact ⟨rfl, hsame.symm, { ht with warnings_eq := rfl }, rfl⟩

theorem Hands.next (hlt : nesting < nestingLimit) (h : K.Hands (nesting + 1) hands below) :
    K.Hands nesting hands.next below.next where
  visit _ _ hnode := Mirrors.level hlt (visitNode_mirrors h hnode)
  infer _ _ hnode := Mirrors.level hlt (inferNode_mirrors h hnode)

theorem Hands.refuse (hle : nestingLimit ≤ nesting) : K.Hands nesting hands.next .refuse where
  visit p node _ := by
    refine (descend_refused node hle).bind (g := fun _ => Pure.pure ())
      fun entered hentered => ?_
    subst hentered
    exact .pure trivial
  infer p node _ := by
    refine (descend_refused node hle).bind (g := fun _ => Pure.pure none)
      fun entered hentered => ?_
    subst hentered
    exact .pure trivial

end Origins

/-! ## All levels -/

/-- The walker for nodes that are nested this deep. -/
def walkerAt (nesting : Nat) : Walker := walker (nestingLimit - nesting)

theorem walkerAt_zero : (walkerAt 0).visit = visit := rfl

theorem walkerAt_of_le {nesting : Nat} (h : nestingLimit ≤ nesting) :
    walkerAt nesting = .refuse := by
  unfold walkerAt
  rw [Nat.sub_eq_zero_of_le h]
  rfl

theorem walkerAt_of_lt {nesting : Nat} (h : nesting < nestingLimit) :
    walkerAt nesting = (walkerAt (nesting + 1)).next := by
  have hlevels : nestingLimit - nesting = (nestingLimit - (nesting + 1)) + 1 := by omega
  unfold walkerAt
  rw [hlevels]
  rfl

theorem Origins.hands_next (K : Origins) {nesting : Nat} {hands : Traverser}
    (h : nesting < nestingLimit → K.Hands (nesting + 1) hands (walkerAt (nesting + 1))) :
    K.Hands nesting hands.next (walkerAt nesting) := by
  by_cases hlt : nesting < nestingLimit
  · rw [walkerAt_of_lt hlt]
    exact Hands.next hlt (h hlt)
  · rw [walkerAt_of_le (Nat.not_lt.mp hlt)]
    exact Hands.refuse (Nat.not_lt.mp hlt)

-- By induction on the levels of the traverser. With none left the traversal would have to be nested
-- beyond the limit.
theorem Origins.hands_traverser (K : Origins) (levels : Nat) {nesting : Nat}
    (h : nestingLimit < levels + nesting) :
    K.Hands nesting (traverser levels) (walkerAt nesting) := by
  induction levels generalizing nesting with
  | zero =>
    have habsurd : ∀ {p : Stand} {t : Traversal}, ¬K.Stands nesting p t := by
      intro p t ht
      have hle := ht.nesting_le
      have heq := ht.nesting_eq
      omega
    exact ⟨fun _ _ _ _ ht => absurd ht habsurd, fun _ _ _ _ ht => absurd ht habsurd⟩
  | succ levels ih => exact K.hands_next fun _ => ih (by omega)

end WidthCheck.Lowering
