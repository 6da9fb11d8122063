import WidthCheck.Proofs.Path.Shown

/-!
# The paths above a path

Going up drops the last component, and ends at the root or at the empty path. So the paths above a
path are those of the prefixes of its components, one for each.
-/

namespace WidthCheck.Path

variable {p up dir : Path}

/-! ## One step up -/

theorem bodyComponents_concat (body : List (List Char)) {piece : List Char}
    (h : isIdle piece = false) :
    ∃ c, bodyComponents (body ++ [piece]) = bodyComponents body ++ [c] ∧ c ≠ .root := by
  refine ⟨if piece = ['.', '.'] then .parent else .normal piece, ?_, ?_⟩
  · rw [bodyComponents_append, bodyComponents_cons_of_not_isIdle h]
    rfl
  · split <;> exact Component.noConfusion

theorem root_not_mem_bodyComponents (body : List (List Char)) :
    Component.root ∉ bodyComponents body := by
  intro h
  obtain ⟨piece, -, hpiece⟩ := List.mem_map.mp h
  split at hpiece <;> cases hpiece

theorem head?_components_eq_root_iff : p.components.head? = some .root ↔ p.isAbsolute = true := by
  rw [isAbsolute_iff, components_eq]
  cases p.anatomy.1 with
  | root => simp [Anchor.components]
  | here => simp [Anchor.components]
  | relative =>
    have hbody : (bodyComponents p.anatomy.2).head? ≠ some .root :=
      fun h => root_not_mem_bodyComponents _ (List.mem_of_head? h)
    simp [Anchor.components, hbody]

theorem components_of_parent? (h : p.parent? = some up) :
    ∃ c, p.components = up.components ++ [c] ∧ c ≠ .root := by
  unfold parent? at h
  split at h
  · rename_i hanchor hbody
    obtain rfl := Option.some.inj h
    refine ⟨.here, ?_, Component.noConfusion⟩
    rw [components_eq, hanchor, ← bodyComponents_dropIdleEnd, hbody]
    rfl
  · cases h
  · rename_i hne hhere
    obtain rfl := Option.some.inj h
    have hclean : AreClean (dropIdleEnd p.anatomy.2) :=
      (areClean_anatomy p).subset (isPrefix_dropIdleEnd _).subset
    have hlast : isIdle ((dropIdleEnd p.anatomy.2).getLast hne) = false :=
      isIdle_getLast?_dropIdleEnd (List.getLast?_eq_some_getLast hne)
    obtain ⟨c, hc, hroot⟩ := bodyComponents_concat (dropIdleEnd p.anatomy.2).dropLast hlast
    refine ⟨c, ?_, hroot⟩
    rw [List.dropLast_concat_getLast, bodyComponents_dropIdleEnd] at hc
    rw [components_assemble, components_eq, bodyComponents_dropIdleEnd, List.append_assoc, ← hc]
    · exact (hclean.subset (List.dropLast_subset _)).subset (isPrefix_dropIdleEnd _).subset
    · intro hrelative piece hpiece
      apply isIdle_head?_anatomy hrelative
      obtain ⟨rest, hrest⟩ := List.dropLast_prefix (dropIdleEnd p.anatomy.2)
      rw [← hrest, List.head?_append, head?_dropIdleEnd hpiece]
      rfl

theorem components_of_parent?_eq_none (h : p.parent? = none) :
    p.components = [] ∨ p.components = [.root] := by
  unfold parent? at h
  split at h
  · cases h
  · rename_i hbody hhere
    rw [components_eq, ← bodyComponents_dropIdleEnd, hbody]
    cases hanchor : p.anatomy.1 with
    | root => exact .inr rfl
    | here => exact absurd hanchor hhere
    | relative => exact .inl rfl
  · cases h

theorem isAbsolute_of_parent? (h : p.parent? = some up) : up.isAbsolute = p.isAbsolute := by
  obtain ⟨c, hc, hroot⟩ := components_of_parent? h
  rw [Bool.eq_iff_iff, ← head?_components_eq_root_iff, ← head?_components_eq_root_iff, hc]
  cases up.components with
  | nil => simpa using hroot
  | cons first rest => simp

/-! ## All the way up -/

/-- A path is another one, or above it. -/
inductive AtOrAbove (p : Path) : Path → Prop where
  | self : AtOrAbove p p
  | parent {dir up : Path} (below : AtOrAbove p dir) (h : dir.parent? = some up) : AtOrAbove p up

-- Each step up takes one component, so going up comes to an end.
theorem parentInduction {motive : Path → Prop} (top : ∀ p : Path, p.parent? = none → motive p)
    (step : ∀ p up : Path, p.parent? = some up → motive up → motive p) (p : Path) : motive p := by
  induction hlength : p.components.length generalizing p with
  | zero =>
    cases hparent : p.parent? with
    | none => exact top p hparent
    | some up =>
      obtain ⟨c, hc, -⟩ := components_of_parent? hparent
      rw [hc] at hlength
      simp at hlength
  | succ length ih =>
    cases hparent : p.parent? with
    | none => exact top p hparent
    | some up =>
      obtain ⟨c, hc, -⟩ := components_of_parent? hparent
      rw [hc, List.length_append, List.length_singleton] at hlength
      exact step p up hparent (ih up (Nat.succ.inj hlength))

theorem atOrAbove_iff_of_parent? (h : p.parent? = some up) :
    AtOrAbove p dir ↔ dir = p ∨ AtOrAbove up dir := by
  constructor
  · intro hdir
    induction hdir with
    | self => exact .inl rfl
    | parent _ hup ih =>
      rcases ih with rfl | habove
      · obtain rfl := Option.some.inj (h.symm.trans hup)
        exact .inr .self
      · exact .inr (habove.parent hup)
  · rintro (rfl | habove)
    · exact .self
    · induction habove with
      | self => exact .parent .self h
      | parent _ hup ih => exact ih.parent hup

theorem atOrAbove_iff_of_top (h : p.parent? = none) : AtOrAbove p dir ↔ dir = p := by
  constructor
  · intro hdir
    induction hdir with
    | self => rfl
    | parent _ hup ih => rw [ih, h] at hup; cases hup
  · rintro rfl
    exact .self

theorem AtOrAbove.components_isPrefix (h : AtOrAbove p dir) : dir.components <+: p.components := by
  induction h with
  | self => exact List.prefix_refl _
  | parent _ hup ih =>
    obtain ⟨c, hc, -⟩ := components_of_parent? hup
    exact (hc ▸ List.prefix_append _ _).trans ih

/-- The paths at or above a path are those of the prefixes of its components; the root stays. -/
theorem exists_atOrAbove_iff {front : List Component} :
    (∃ dir, AtOrAbove p dir ∧ dir.components = front) ↔
      front <+: p.components ∧ (p.isAbsolute = true → front ≠ []) := by
  constructor
  · rintro ⟨dir, hdir, rfl⟩
    refine ⟨hdir.components_isPrefix, fun habs => components_ne_nil_of_isAbsolute ?_⟩
    induction hdir with
    | self => exact habs
    | parent _ hup ih => rw [isAbsolute_of_parent? hup, ih]
  · induction p using parentInduction with
    | top p htop =>
      rintro ⟨hpre, habs⟩
      refine ⟨p, .self, ?_⟩
      rcases components_of_parent?_eq_none htop with hnil | hroot
      · rw [hnil] at hpre ⊢
        exact (List.prefix_nil.mp hpre).symm
      · have hsome : front ≠ [] := by
          apply habs
          rw [← head?_components_eq_root_iff, hroot]
          rfl
        rw [hroot] at hpre ⊢
        have hlength := hpre.length_le
        exact (hpre.eq_of_length (Nat.le_antisymm hlength (List.length_pos_iff.mpr hsome))).symm
    | step p up hup ih =>
      rintro ⟨hpre, habs⟩
      obtain ⟨c, hc, -⟩ := components_of_parent? hup
      rw [hc, List.prefix_concat_iff] at hpre
      rcases hpre with hself | hbelow
      · exact ⟨p, .self, hc.trans hself.symm⟩
      · obtain ⟨dir, hdir, hfront⟩ := ih ⟨hbelow, by rwa [isAbsolute_of_parent? hup]⟩
        exact ⟨dir, (atOrAbove_iff_of_parent? hup).mpr (.inr hdir), hfront⟩

theorem ancestors_of_parent? (h : p.parent? = some up) : p.ancestors = p :: up.ancestors := by
  obtain ⟨c, hc, -⟩ := components_of_parent? h
  rw [ancestors, ancestors, hc, List.length_append, List.length_singleton, ancestorsUpTo, h]

theorem ancestors_of_top (h : p.parent? = none) : p.ancestors = [p] := by
  rw [ancestors, ancestorsUpTo, h]

theorem mem_ancestors_iff : dir ∈ p.ancestors ↔ AtOrAbove p dir := by
  induction p using parentInduction with
  | top p htop => rw [ancestors_of_top htop, List.mem_singleton, atOrAbove_iff_of_top htop]
  | step p up hup ih =>
    rw [ancestors_of_parent? hup, List.mem_cons, ih, atOrAbove_iff_of_parent? hup]

theorem pairwise_ancestors (p : Path) :
    p.ancestors.Pairwise fun a b => b.components.length < a.components.length := by
  induction p using parentInduction with
  | top p htop =>
    rw [ancestors_of_top htop]
    exact List.pairwise_singleton _ _
  | step p up hup ih =>
    rw [ancestors_of_parent? hup]
    refine .cons (fun dir hdir => ?_) ih
    obtain ⟨c, hc, -⟩ := components_of_parent? hup
    have hdepth := (mem_ancestors_iff.mp hdir).components_isPrefix.length_le
    rw [hc, List.length_append, List.length_singleton]
    exact Nat.lt_succ_of_le hdepth

end WidthCheck.Path
