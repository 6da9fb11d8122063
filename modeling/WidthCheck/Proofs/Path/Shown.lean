import WidthCheck.Proofs.Path

/-!
# Back from the path that is shown

A path is shown relative to a base, and joined to the base again when its file is read. Showing
works on components and joining on texts. The path that comes back has the components it had, and
no idle piece at its end unless nothing but the base was left of it.
-/

namespace WidthCheck.Path

variable {p base : Path}

/-! ## Absolute paths -/

theorem isAbsolute_iff : p.isAbsolute = true ↔ p.anatomy.1 = .root := by
  unfold isAbsolute
  cases htext : p.text.toList with
  | nil =>
    have hpieces : pieces p.text.toList = [[]] := by rw [htext]; rfl
    have hanatomy : p.anatomy = (.relative, [[]]) := by unfold anatomy; rw [hpieces]
    simp [hanatomy]
  | cons c rest =>
    by_cases hc : c = '/'
    · have hpieces : pieces p.text.toList = [] :: pieces rest := by
        rw [htext, hc]
        exact Text.splitWhere_cons_of_true rfl rest
      simp [anatomy_of_root hpieces (pieces_ne_nil rest), hc]
    · -- The first piece starts with `c`, so it is not empty.
      have hfirst : ∀ body, pieces p.text.toList ≠ [] :: body := by
        intro body hpieces
        rw [htext, pieces, Text.splitWhere_cons_of_false (by simpa using hc)] at hpieces
        cases hrest : Text.splitWhere (· == '/') rest with
        | nil => exact Text.splitWhere_ne_nil _ _ hrest
        | cons first more =>
          rw [hrest] at hpieces
          cases hpieces
      have hanatomy : p.anatomy.1 ≠ .root := by
        unfold anatomy
        split
        · rename_i hpieces
          exact absurd hpieces (hfirst _)
        · exact Anchor.noConfusion
        · exact Anchor.noConfusion
      simp [hanatomy, hc]

theorem join_of_isAbsolute (h : p.isAbsolute = true) (base : Path) : base.join p = p :=
  if_pos (.inl h)

theorem text_ne_empty_of_isAbsolute (h : p.isAbsolute = true) : p.text ≠ "" := by
  intro htext
  rw [isAbsolute, htext] at h
  cases h

theorem components_ne_nil_of_isAbsolute (h : p.isAbsolute = true) : p.components ≠ [] := by
  rw [components_eq, isAbsolute_iff.mp h]
  exact List.cons_ne_nil _ _

theorem isAbsolute_join (h : base.isAbsolute = true) (p : Path) :
    (base.join p).isAbsolute = true := by
  cases hp : p.isAbsolute with
  | true => rw [join_of_isAbsolute hp, hp]
  | false =>
    obtain ⟨front, hanatomy, -⟩ := anatomy_join (text_ne_empty_of_isAbsolute h) hp
    rw [isAbsolute_iff, hanatomy, isAbsolute_iff.mp h]

/-! ## What is shown -/

/-- Pieces that can stand between slashes and have no idle one at either end. -/
structure AreTrimmed (body : List (List Char)) : Prop where
  areClean : AreClean body
  head : ∀ piece, body.head? = some piece → isIdle piece = false
  last : ∀ piece, body.getLast? = some piece → isIdle piece = false

theorem isIdle_getLast?_dropIdleEnd {body : List (List Char)} {piece : List Char}
    (h : (dropIdleEnd body).getLast? = some piece) : isIdle piece = false := by
  rw [dropIdleEnd, List.getLast?_reverse] at h
  exact isIdle_head?_dropWhile h

theorem AreClean.areTrimmed {body : List (List Char)} (h : AreClean body) :
    AreTrimmed (dropIdleEnd (body.dropWhile isIdle)) where
  areClean := (h.subset (List.dropWhile_suffix _).subset).subset (isPrefix_dropIdleEnd _).subset
  head _ hpiece := isIdle_head?_dropWhile (head?_dropIdleEnd hpiece)
  last _ hpiece := isIdle_getLast?_dropIdleEnd hpiece

theorem shownIn_of_isPrefix (h : base.components <+: p.components) (hne : base.components ≠ []) :
    ∃ body, p.shownIn base = assemble .relative body ∧ AreTrimmed body ∧
      bodyComponents body = p.components.drop base.components.length := by
  refine ⟨_, ?_, (areClean_remainder p base.components.length).areTrimmed, ?_⟩
  · rw [shownIn, relativeTo?, if_pos (List.isPrefixOf_iff_prefix.mpr h), if_neg hne,
      Option.getD_some]
  · rw [bodyComponents_dropIdleEnd, bodyComponents_dropWhile,
      bodyComponents_remainder (List.length_pos_iff.mpr hne)]

theorem shownIn_eq_self (h : ¬base.components <+: p.components) : p.shownIn base = p := by
  rw [shownIn, relativeTo?, if_neg (mt List.isPrefixOf_iff_prefix.mp h), Option.getD_none]

theorem bodyComponents_pieces_assemble {body : List (List Char)} (h : AreClean body) :
    bodyComponents (pieces (assemble .relative body).text.toList) = bodyComponents body := by
  rw [assemble, String.toList_ofList, bodyComponents_pieces_joinPieces h]

/-! ## And back -/

/-- An absolute path comes back with the components it had. -/
theorem components_join_shownIn (hp : p.isAbsolute = true) (base : Path) :
    (base.join (p.shownIn base)).components = p.components := by
  by_cases hpre : base.components <+: p.components
  · by_cases hbase : base.text = ""
    · have hempty : base.components = [] := by
        have heq : base = ⟨""⟩ := by rw [← hbase]
        rw [heq]
        rfl
      rw [join, if_pos (.inr hbase), components_shownIn hpre, hempty]
      rfl
    · have hne : base.components ≠ [] := by
        obtain ⟨-, -, -, hne⟩ := anatomy_join (p := ⟨""⟩) hbase rfl
        exact hne
      obtain ⟨body, hshown, htrimmed, hbody⟩ := shownIn_of_isPrefix hpre hne
      have hrelative := isAbsolute_assemble_relative htrimmed.areClean htrimmed.head
      rw [hshown, components_join hbase hrelative,
        bodyComponents_pieces_assemble htrimmed.areClean, hbody]
      obtain ⟨rest, hrest⟩ := hpre
      rw [← hrest, List.drop_left]
  · rw [shownIn_eq_self hpre, join_of_isAbsolute hp]

/-- No idle piece stands at the end of the path. -/
def EndsInComponent (p : Path) : Prop :=
  ∀ piece, p.anatomy.2.getLast? = some piece → isIdle piece = false

theorem endsInComponent_join_shownIn (hpre : base.components <+: p.components)
    (hbase : base.isAbsolute = true) (hne : p.components ≠ base.components) :
    (base.join (p.shownIn base)).EndsInComponent := by
  obtain ⟨body, hshown, htrimmed, hbody⟩ :=
    shownIn_of_isPrefix hpre (components_ne_nil_of_isAbsolute hbase)
  have hsome : body ≠ [] := by
    rintro rfl
    obtain ⟨rest, hrest⟩ := hpre
    rw [← hrest, List.drop_left] at hbody
    rw [← hrest, ← hbody] at hne
    exact hne (List.append_nil _)
  have hrelative := isAbsolute_assemble_relative htrimmed.areClean htrimmed.head
  obtain ⟨front, hanatomy, -⟩ := anatomy_join (text_ne_empty_of_isAbsolute hbase) hrelative
  have hpieces : pieces (assemble .relative body).text.toList = body := by
    rw [assemble, String.toList_ofList, pieces_joinPieces htrimmed.areClean hsome]
  intro piece hpiece
  rw [hshown, hanatomy, hpieces] at hpiece
  change (front ++ body).getLast? = some piece at hpiece
  rw [List.getLast?_append, List.getLast?_eq_some_getLast hsome, Option.some_or] at hpiece
  exact htrimmed.last piece (by rw [List.getLast?_eq_some_getLast hsome, hpiece])

end WidthCheck.Path
