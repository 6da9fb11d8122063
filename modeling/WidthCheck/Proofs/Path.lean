import WidthCheck.Path
import WidthCheck.Proofs.Text.Words

/-!
# Components of relative paths

A path is taken apart into pieces and put together again as a text, so what a relative path
consists of is a matter of what splitting gives back. Its components are those that follow the
components of the base, and paths below one base compare as their relative paths do.
-/

namespace WidthCheck.Path

/-- Whether pieces can stand between slashes. -/
def AreClean (body : List (List Char)) : Prop := ∀ piece ∈ body, ∀ c ∈ piece, (c == '/') = false

theorem areClean_pieces (text : List Char) : AreClean (pieces text) :=
  fun _ hpiece => Text.eq_false_of_mem_splitWhere hpiece

theorem AreClean.subset {body body' : List (List Char)} (h : AreClean body) (hsub : body' ⊆ body) :
    AreClean body' :=
  fun piece hpiece => h piece (hsub hpiece)

theorem pieces_ne_nil (text : List Char) : pieces text ≠ [] := Text.splitWhere_ne_nil _ _

theorem pieces_append_slash (front text : List Char) :
    pieces (front ++ '/' :: text) = pieces front ++ pieces text :=
  Text.splitWhere_append_cut rfl front text

theorem pieces_of_clean {name : List Char} (h : ∀ c ∈ name, (c == '/') = false) :
    pieces name = [name] :=
  Text.splitWhere_eq_singleton h

theorem joinPieces_cons {piece : List Char} {rest : List (List Char)} (h : rest ≠ []) :
    joinPieces (piece :: rest) = piece ++ '/' :: joinPieces rest := by
  cases rest with
  | nil => exact absurd rfl h
  | cons next rest => simp [joinPieces, List.intercalate_cons_cons]

theorem pieces_joinPieces {body : List (List Char)} (hclean : AreClean body) (hne : body ≠ []) :
    pieces (joinPieces body) = body := by
  induction body with
  | nil => exact absurd rfl hne
  | cons piece rest ih =>
    obtain ⟨hpiece, hrest⟩ := List.forall_mem_cons.mp hclean
    cases rest with
    | nil =>
      rw [joinPieces, List.intercalate_singleton, pieces_of_clean hpiece]
    | cons next rest =>
      rw [joinPieces_cons (List.cons_ne_nil _ _), pieces_append_slash, pieces_of_clean hpiece,
        ih hrest (List.cons_ne_nil _ _)]
      rfl

/-! ## Idle pieces -/

theorem isIdle_eq_true_iff {piece : List Char} :
    isIdle piece = true ↔ piece = [] ∨ piece = ['.'] := by
  simp [isIdle]

theorem bodyComponents_cons_of_isIdle {piece : List Char} (h : isIdle piece = true)
    (body : List (List Char)) : bodyComponents (piece :: body) = bodyComponents body := by
  simp [bodyComponents, h]

theorem bodyComponents_cons_of_not_isIdle {piece : List Char} (h : isIdle piece = false)
    (body : List (List Char)) :
    bodyComponents (piece :: body) =
      (if piece = ['.', '.'] then .parent else .normal piece) :: bodyComponents body := by
  simp [bodyComponents, h]

theorem bodyComponents_dropWhile (body : List (List Char)) :
    bodyComponents (body.dropWhile isIdle) = bodyComponents body := by
  induction body with
  | nil => rfl
  | cons piece rest ih =>
    cases h : isIdle piece with
    | true => rw [List.dropWhile_cons_of_pos h, ih, bodyComponents_cons_of_isIdle h]
    | false => rw [List.dropWhile_cons_of_neg (by simp [h])]

theorem bodyComponents_reverse (body : List (List Char)) :
    bodyComponents body.reverse = (bodyComponents body).reverse := by
  simp [bodyComponents, List.filter_reverse]

theorem bodyComponents_dropIdleEnd (body : List (List Char)) :
    bodyComponents (dropIdleEnd body) = bodyComponents body := by
  rw [dropIdleEnd, bodyComponents_reverse, bodyComponents_dropWhile, bodyComponents_reverse,
    List.reverse_reverse]

theorem isPrefix_dropIdleEnd (body : List (List Char)) : dropIdleEnd body <+: body := by
  have h := List.reverse_prefix.mpr (List.dropWhile_suffix isIdle (l := body.reverse))
  rwa [List.reverse_reverse] at h

-- A relative path must not start with an idle piece: that would make it absolute, or one from here.
theorem isIdle_head?_dropWhile {body : List (List Char)} {piece : List Char}
    (h : (body.dropWhile isIdle).head? = some piece) : isIdle piece = false := by
  have hhead := List.head?_dropWhile_not isIdle body
  rwa [h] at hhead

theorem head?_dropIdleEnd {body : List (List Char)} {piece : List Char}
    (h : (dropIdleEnd body).head? = some piece) : body.head? = some piece := by
  obtain ⟨idle, hbody⟩ := isPrefix_dropIdleEnd body
  rw [← hbody, List.head?_append, h]
  rfl

theorem bodyComponents_tail_dropWhile (body : List (List Char)) :
    bodyComponents (body.dropWhile isIdle).tail = (bodyComponents body).tail := by
  rw [← bodyComponents_dropWhile body]
  cases h : body.dropWhile isIdle with
  | nil => rfl
  | cons piece rest =>
    have hpiece : isIdle piece = false := by
      apply isIdle_head?_dropWhile
      rw [h]
      rfl
    rw [bodyComponents_cons_of_not_isIdle hpiece]
    rfl

theorem bodyComponents_dropComponents (count : Nat) (body : List (List Char)) :
    bodyComponents (dropComponents count body) = (bodyComponents body).drop count := by
  induction count generalizing body with
  | zero => rfl
  | succ count ih =>
    rw [dropComponents, ih, bodyComponents_tail_dropWhile, List.drop_tail]

theorem isSuffix_dropComponents (count : Nat) (body : List (List Char)) :
    dropComponents count body <:+ body := by
  induction count generalizing body with
  | zero => exact List.suffix_refl body
  | succ count ih =>
    exact (ih _).trans ((List.tail_suffix _).trans (List.dropWhile_suffix _))

/-! ## Components of assembled paths -/

theorem bodyComponents_pieces_joinPieces {body : List (List Char)} (hclean : AreClean body) :
    bodyComponents (pieces (joinPieces body)) = bodyComponents body := by
  cases body with
  | nil => rfl
  | cons piece rest => rw [pieces_joinPieces hclean (List.cons_ne_nil _ _)]

/-- The component that the start of a path is. -/
def Anchor.components : Anchor → List Component
  | root => [.root]
  | here => [.here]
  | relative => []

theorem components_eq (p : Path) :
    p.components = p.anatomy.1.components ++ bodyComponents p.anatomy.2 := by
  unfold components
  split <;> rename_i hanatomy <;> rw [hanatomy] <;> rfl

theorem anatomy_of_root {p : Path} {body : List (List Char)}
    (h : pieces p.text.toList = [] :: body) (hne : body ≠ []) : p.anatomy = (.root, body) := by
  unfold anatomy
  rw [h]
  cases body with
  | nil => exact absurd rfl hne
  | cons piece rest => rfl

theorem anatomy_of_here {p : Path} {body : List (List Char)}
    (h : pieces p.text.toList = ['.'] :: body) : p.anatomy = (.here, body) := by
  unfold anatomy
  rw [h]
  rfl

theorem anatomy_of_relative {p : Path}
    (h : ∀ piece, (pieces p.text.toList).head? = some piece → isIdle piece = false) :
    p.anatomy = (.relative, pieces p.text.toList) := by
  unfold anatomy
  split
  · rename_i hpieces
    cases h [] (by rw [hpieces]; rfl)
  · rename_i hpieces
    cases h ['.'] (by rw [hpieces]; rfl)
  · rfl

theorem areClean_anatomy (p : Path) : AreClean p.anatomy.2 := by
  apply (areClean_pieces p.text.toList).subset
  unfold anatomy
  split <;> rename_i hpieces
  · rw [hpieces]
    exact List.subset_cons_self [] _
  · rw [hpieces]
    exact List.subset_cons_self ['.'] _
  · exact List.Subset.refl _

theorem isIdle_head?_anatomy {p : Path} {piece : List Char} (hrelative : p.anatomy.1 = .relative)
    (h : (dropIdleEnd p.anatomy.2).head? = some piece) : isIdle piece = false := by
  cases hpieces : pieces p.text.toList with
  | nil => exact absurd hpieces (Text.splitWhere_ne_nil _ _)
  | cons first rest =>
    cases hidle : isIdle first with
    | true =>
      rcases isIdle_eq_true_iff.mp hidle with rfl | rfl
      · cases rest with
        | nil =>
          have hempty : p.anatomy = (.relative, [[]]) := by unfold anatomy; rw [hpieces]
          rw [hempty] at h
          cases h
        | cons next rest =>
          rw [anatomy_of_root hpieces (List.cons_ne_nil _ _)] at hrelative
          cases hrelative
      · rw [anatomy_of_here hpieces] at hrelative
        cases hrelative
    | false =>
      have hanatomy : p.anatomy = (.relative, first :: rest) := by
        rw [anatomy_of_relative (by simpa [hpieces] using hidle), hpieces]
      rw [hanatomy] at h
      have hfirst : first = piece := Option.some.inj (head?_dropIdleEnd h)
      rwa [← hfirst]

-- What is put together is taken apart in the same way.
theorem components_assemble {anchor : Anchor} {body : List (List Char)} (hclean : AreClean body)
    (hhead : anchor = .relative → ∀ piece, body.head? = some piece → isIdle piece = false) :
    (assemble anchor body).components = anchor.components ++ bodyComponents body := by
  rw [components_eq]
  cases anchor with
  | root =>
    have hpieces : pieces (assemble .root body).text.toList = [] :: pieces (joinPieces body) := by
      rw [assemble, String.toList_ofList]
      exact Text.splitWhere_cons_of_true rfl _
    rw [anatomy_of_root hpieces (Text.splitWhere_ne_nil _ _),
      bodyComponents_pieces_joinPieces hclean]
  | here =>
    cases body with
    | nil => rfl
    | cons piece rest =>
      have hpieces : pieces (assemble .here (piece :: rest)).text.toList =
          ['.'] :: pieces (joinPieces (piece :: rest)) := by
        rw [assemble, String.toList_ofList]
        have hdot : ∀ c ∈ ['.'], (c == '/') = false := List.forall_mem_singleton.mpr rfl
        exact Text.splitWhere_append_cons hdot rfl _
      rw [anatomy_of_here hpieces, bodyComponents_pieces_joinPieces hclean]
  | relative =>
    cases body with
    | nil => rfl
    | cons piece rest =>
      have hpieces : pieces (assemble .relative (piece :: rest)).text.toList = piece :: rest := by
        rw [assemble, String.toList_ofList]
        exact pieces_joinPieces hclean (List.cons_ne_nil _ _)
      rw [anatomy_of_relative (by rw [hpieces]; exact hhead rfl), hpieces]

theorem bodyComponents_remainder {p : Path} {count : Nat} (h : 0 < count) :
    bodyComponents (p.remainder count) = p.components.drop count := by
  rw [components_eq, List.drop_append]
  unfold remainder
  split
  · rename_i body hanatomy
    rw [bodyComponents_dropComponents, hanatomy]
    simp [Anchor.components]
  · rename_i anchor body hnot hanatomy
    rw [bodyComponents_dropComponents, hanatomy]
    cases anchor with
    | root | here => simp [Anchor.components, List.drop_of_length_le, Nat.succ_le_of_lt h]
    | relative => exact absurd rfl hnot

theorem areClean_remainder (p : Path) (count : Nat) : AreClean (p.remainder count) := by
  apply (areClean_anatomy p).subset
  unfold remainder
  split <;> rename_i hanatomy <;> rw [hanatomy] <;> exact (isSuffix_dropComponents _ _).subset

/-- The components of a path as it is shown are those that follow the components of the base. -/
theorem components_shownIn {p base : Path} (h : base.components <+: p.components) :
    (p.shownIn base).components = p.components.drop base.components.length := by
  unfold shownIn relativeTo?
  rw [if_pos (List.isPrefixOf_iff_prefix.mpr h)]
  by_cases hbase : base.components = []
  · rw [if_pos hbase, Option.getD_some, hbase, components_assemble, bodyComponents_dropIdleEnd,
      ← components_eq]
    · rfl
    · exact (areClean_anatomy p).subset (isPrefix_dropIdleEnd _).subset
    · exact fun hrelative _ => isIdle_head?_anatomy hrelative
  · have hcount : 0 < base.components.length := List.length_pos_iff.mpr hbase
    rw [if_neg hbase, Option.getD_some, components_assemble, bodyComponents_dropIdleEnd,
      bodyComponents_dropWhile, bodyComponents_remainder hcount]
    · rfl
    · exact ((areClean_remainder p _).subset (List.dropWhile_suffix _).subset).subset
        (isPrefix_dropIdleEnd _).subset
    · exact fun _ _ hhead => isIdle_head?_dropWhile (head?_dropIdleEnd hhead)

-- A text that starts with a name or two dots does not start with a slash.
theorem isAbsolute_assemble_relative {body : List (List Char)} (hclean : AreClean body)
    (hhead : ∀ piece, body.head? = some piece → isIdle piece = false) :
    (assemble .relative body).isAbsolute = false := by
  rw [isAbsolute, assemble, String.toList_ofList]
  cases body with
  | nil => rfl
  | cons piece rest =>
    cases piece with
    | nil => cases hhead [] rfl
    | cons c piece =>
      have hc : (c == '/') = false := hclean _ List.mem_cons_self c List.mem_cons_self
      have hfirst : (joinPieces ((c :: piece) :: rest)).head? = some c := by
        cases rest <;> simp [joinPieces, List.intercalate_cons_cons]
      simpa [hfirst] using hc

/-! ## Paths below a base -/

/-- Names of files and directories: none is empty, a dot, or has a slash in it. -/
structure AreNames (names : List (List Char)) : Prop where
  areClean : AreClean names
  not_isIdle : ∀ name ∈ names, isIdle name = false

/-- The relative path of names, from the base down. -/
def ofNames (names : List (List Char)) : Path := assemble .relative names

theorem toList_ofNames (names : List (List Char)) :
    (ofNames names).text.toList = joinPieces names := by
  show (String.ofList (joinPieces names)).toList = joinPieces names
  exact String.toList_ofList

namespace AreNames

variable {names : List (List Char)}

theorem dropWhile_isIdle (h : AreNames names) : names.dropWhile isIdle = names := by
  cases names with
  | nil => rfl
  | cons name rest =>
    apply List.dropWhile_cons_of_neg
    simp [h.not_isIdle name List.mem_cons_self]

theorem dropIdleEnd_eq (h : AreNames names) : dropIdleEnd names = names := by
  have hreverse : AreNames names.reverse :=
    ⟨h.areClean.subset (List.reverse_subset.mpr (List.Subset.refl _)),
      fun name hname => h.not_isIdle name (List.mem_reverse.mp hname)⟩
  rw [dropIdleEnd, hreverse.dropWhile_isIdle, List.reverse_reverse]

-- No names at all leave one piece, which is empty.
theorem dropWhile_pieces (h : AreNames names) :
    (pieces (joinPieces names)).dropWhile isIdle = names := by
  cases names with
  | nil => rfl
  | cons name rest => rw [pieces_joinPieces h.areClean (List.cons_ne_nil _ _), h.dropWhile_isIdle]

theorem not_isAbsolute (h : AreNames names) : (ofNames names).isAbsolute = false := by
  apply isAbsolute_assemble_relative h.areClean
  intro name hname
  exact h.not_isIdle name (List.mem_of_head? hname)

end AreNames

theorem bodyComponents_append (body body' : List (List Char)) :
    bodyComponents (body ++ body') = bodyComponents body ++ bodyComponents body' := by
  simp [bodyComponents]

-- Counting off the components of the front leaves idle pieces of it at most.
theorem dropWhile_dropComponents_append (front rest : List (List Char)) :
    (dropComponents (bodyComponents front).length (front ++ rest)).dropWhile isIdle =
      rest.dropWhile isIdle := by
  induction front with
  | nil => rfl
  | cons piece front ih =>
    cases hidle : isIdle piece with
    | true =>
      rw [bodyComponents_cons_of_isIdle hidle, ← ih]
      cases (bodyComponents front).length with
      | zero => exact List.dropWhile_cons_of_pos hidle
      | succ count =>
        rw [dropComponents, dropComponents, List.cons_append, List.dropWhile_cons_of_pos hidle]
    | false =>
      rw [bodyComponents_cons_of_not_isIdle hidle, List.length_cons, dropComponents,
        List.cons_append, List.dropWhile_cons_of_neg (by simp [hidle])]
      exact ih

-- The pieces of a joined path: those of the base, less an empty last one, and those of the path
-- below it.
theorem pieces_join {base p : Path} (hbase : base.text ≠ "") (hp : p.isAbsolute = false) :
    ∃ front, front ≠ [] ∧
      pieces (base.join p).text.toList = front ++ pieces p.text.toList ∧
      (pieces base.text.toList = front ∨ pieces base.text.toList = front ++ [[]]) := by
  have hjoin : ¬(p.isAbsolute ∨ base.text = "") := by simp [hp, hbase]
  unfold join
  rw [if_neg hjoin]
  by_cases hslash : base.text.toList.getLast? = some '/'
  · obtain ⟨front, hfront⟩ := List.getLast?_eq_some_iff.mp hslash
    refine ⟨pieces front, pieces_ne_nil _, ?_, .inr ?_⟩
    · rw [if_pos hslash, String.toList_append, hfront, List.append_assoc]
      exact pieces_append_slash front _
    · rw [hfront]
      exact pieces_append_slash front []
  · refine ⟨pieces base.text.toList, pieces_ne_nil _, ?_, .inl rfl⟩
    have hslashText : "/".toList = ['/'] := rfl
    rw [if_neg hslash, String.toList_append, String.toList_append, hslashText, List.append_assoc]
    exact pieces_append_slash _ _

-- Joining keeps how the base starts and only adds pieces after it.
theorem anatomy_join {base p : Path} (hbase : base.text ≠ "") (hp : p.isAbsolute = false) :
    ∃ front, (base.join p).anatomy = (base.anatomy.1, front ++ pieces p.text.toList) ∧
      (base.anatomy.2 = front ∨ base.anatomy.2 = front ++ [[]]) ∧ base.components ≠ [] := by
  obtain ⟨front, hne, hjoined, hpieces⟩ := pieces_join hbase hp
  have hmore : pieces p.text.toList ≠ [] := pieces_ne_nil _
  cases front with
  | nil => exact absurd rfl hne
  | cons first front =>
    -- The first piece tells how both paths start.
    have hstart : ∃ rest, pieces base.text.toList = first :: rest ∧
        (rest = front ∨ rest = front ++ [[]]) := by
      rcases hpieces with heq | heq
      · exact ⟨_, heq, .inl rfl⟩
      · exact ⟨_, heq, .inr rfl⟩
    obtain ⟨rest, hrest, hcases⟩ := hstart
    rw [List.cons_append] at hjoined
    cases hidle : isIdle first with
    | true =>
      rcases isIdle_eq_true_iff.mp hidle with rfl | rfl
      · have hsome : rest ≠ [] := by
          rintro rfl
          exact hbase (String.toList_inj.mp (Text.eq_nil_of_splitWhere hrest))
        refine ⟨front, ?_, ?_, ?_⟩
        · rw [anatomy_of_root hjoined (by simp [hmore]), anatomy_of_root hrest hsome]
        · rwa [anatomy_of_root hrest hsome]
        · simp [components_eq, anatomy_of_root hrest hsome, Anchor.components]
      · refine ⟨front, ?_, ?_, ?_⟩
        · rw [anatomy_of_here hjoined, anatomy_of_here hrest]
        · rwa [anatomy_of_here hrest]
        · simp [components_eq, anatomy_of_here hrest, Anchor.components]
    | false =>
      have hbaseAnatomy : base.anatomy = (.relative, first :: rest) := by
        rw [anatomy_of_relative (by simpa [hrest] using hidle), hrest]
      refine ⟨first :: front, ?_, ?_, ?_⟩
      · rw [anatomy_of_relative (by simpa [hjoined] using hidle), hjoined, hbaseAnatomy]
        rfl
      · rw [hbaseAnatomy]
        exact hcases.imp (congrArg (first :: ·)) (congrArg (first :: ·))
      · rw [components_eq, hbaseAnatomy, bodyComponents_cons_of_not_isIdle hidle]
        exact List.append_ne_nil_of_right_ne_nil _ (List.cons_ne_nil _ _)

-- An empty piece at the end of the base is no component.
theorem bodyComponents_of_anatomy_join {base : Path} {front : List (List Char)}
    (h : base.anatomy.2 = front ∨ base.anatomy.2 = front ++ [[]]) :
    bodyComponents base.anatomy.2 = bodyComponents front := by
  rcases h with heq | heq
  · rw [heq]
  · rw [heq, bodyComponents_append]
    exact List.append_nil _

theorem components_join {base p : Path} (hbase : base.text ≠ "") (hp : p.isAbsolute = false) :
    (base.join p).components = base.components ++ bodyComponents (pieces p.text.toList) := by
  obtain ⟨front, hanatomy, hbody, -⟩ := anatomy_join hbase hp
  rw [components_eq, components_eq, hanatomy, bodyComponents_append,
    bodyComponents_of_anatomy_join hbody, List.append_assoc]

theorem shownIn_ofNames {names : List (List Char)} (h : AreNames names) :
    (ofNames names).shownIn ⟨""⟩ = ofNames names := by
  cases names with
  | nil => rfl
  | cons name rest =>
    have hpieces : pieces (ofNames (name :: rest)).text.toList = name :: rest := by
      rw [toList_ofNames, pieces_joinPieces h.areClean (List.cons_ne_nil _ _)]
    have hanatomy : (ofNames (name :: rest)).anatomy = (.relative, name :: rest) := by
      rw [anatomy_of_relative, hpieces]
      simpa [hpieces] using h.not_isIdle name List.mem_cons_self
    show assemble (ofNames (name :: rest)).anatomy.1
      (dropIdleEnd (ofNames (name :: rest)).anatomy.2) = _
    rw [hanatomy, h.dropIdleEnd_eq]
    rfl

/-- A path below the base is shown as the names that lead there. -/
theorem shownIn_join {base : Path} {names : List (List Char)} (h : AreNames names) :
    (base.join (ofNames names)).shownIn base = ofNames names := by
  by_cases hbase : base.text = ""
  · have hempty : base = ⟨""⟩ := by rw [← hbase]
    have hjoin : base.join (ofNames names) = ofNames names := if_pos (.inr hbase)
    rw [hjoin, hempty, shownIn_ofNames h]
  · obtain ⟨front, hanatomy, hbody, hne⟩ := anatomy_join hbase h.not_isAbsolute
    rw [toList_ofNames] at hanatomy
    have hfront := bodyComponents_of_anatomy_join hbody
    have hrest : ((base.join (ofNames names)).remainder base.components.length).dropWhile isIdle =
        names := by
      rw [components_eq, hfront, remainder, hanatomy]
      have hdrop := dropWhile_dropComponents_append front (pieces (joinPieces names))
      rw [h.dropWhile_pieces] at hdrop
      cases base.anatomy.1 with
      | relative => exact hdrop
      | root | here =>
        show (dropComponents ((bodyComponents front).length + 1 - 1) _).dropWhile isIdle = names
        rw [Nat.add_sub_cancel, hdrop]
    unfold shownIn relativeTo?
    rw [if_pos, if_neg hne, hrest, h.dropIdleEnd_eq]
    · rfl
    · rw [components_join hbase h.not_isAbsolute, List.isPrefixOf_iff_prefix]
      exact List.prefix_append _ _

end WidthCheck.Path

namespace WidthCheck

/-! ## The order of paths -/

theorem transCmp_on {α β : Type} {cmp : β → β → Ordering} [Std.TransCmp cmp] (f : α → β) :
    Std.TransCmp fun a b => cmp (f a) (f b) where
  eq_swap := Std.OrientedCmp.eq_swap
  isLE_trans := Std.TransCmp.isLE_trans

instance : Std.TransCmp Component.compare :=
  inferInstanceAs (Std.TransCmp (compareLex (compareOn Component.rank) (compareOn Component.name)))

instance : Std.LawfulEqCmp Component.compare where
  eq_of_compare {a b} h := by
    obtain ⟨hrank, hname⟩ := compareLex_eq_eq.mp h
    have hrank : a.rank = b.rank := Std.LawfulEqCmp.eq_of_compare hrank
    have hname : a.name = b.name := Std.LawfulEqCmp.eq_of_compare hname
    cases a <;> cases b <;> first | rfl | exact congrArg _ hname | cases hrank

namespace Path

instance : Std.TransCmp Path.compare := transCmp_on components

theorem compare_eq_eq_iff {p q : Path} : p.compare q = .eq ↔ p.components = q.components := by
  unfold compare
  exact Std.LawfulEqCmp.compare_eq_iff_eq

theorem compareLex_append_left (front a b : List Component) :
    List.compareLex Component.compare (front ++ a) (front ++ b) =
      List.compareLex Component.compare a b := by
  induction front with
  | nil => rfl
  | cons c front ih =>
    have hself : c.compare c = .eq := Std.ReflCmp.compare_self
    rw [List.cons_append, List.cons_append, List.compareLex_cons_cons, hself, ih]
    rfl

/-- Paths below one base compare as they are shown. -/
theorem compare_shownIn {p q base : Path} (hp : base.components <+: p.components)
    (hq : base.components <+: q.components) :
    (p.shownIn base).compare (q.shownIn base) = p.compare q := by
  unfold compare
  rw [components_shownIn hp, components_shownIn hq]
  obtain ⟨below, hbelow⟩ := hp
  obtain ⟨below', hbelow'⟩ := hq
  rw [← hbelow, ← hbelow', List.drop_left, List.drop_left, compareLex_append_left]

end Path

end WidthCheck
