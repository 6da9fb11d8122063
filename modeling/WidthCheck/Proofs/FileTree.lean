import WidthCheck.FileTree
import WidthCheck.Proofs.Path.Parent

/-!
# Following paths

A path is followed piece by piece, and an idle piece stays in the directory it is met in. So paths
with the same components lead to the same place; only an idle piece at the end asks for more, a
directory. In a tree as a file system has it, the names of an entry lead to the entry.
-/

namespace WidthCheck

namespace Path

variable {p q : Path}

theorem pieces_of_isAbsolute (h : p.isAbsolute = true) :
    pieces p.text.toList = [] :: p.anatomy.2 := by
  obtain ⟨rest, htext⟩ := List.head?_eq_some_iff.mp (beq_iff_eq.mp h)
  have hpieces : pieces p.text.toList = [] :: pieces rest := by
    rw [htext]
    exact Text.splitWhere_cons_of_true rfl rest
  rw [hpieces, anatomy_of_root hpieces (pieces_ne_nil rest)]

theorem components_of_isAbsolute (h : p.isAbsolute = true) :
    p.components = .root :: bodyComponents p.anatomy.2 := by
  rw [components_eq, isAbsolute_iff.mp h]
  rfl

-- The pieces that count can be told from their components.
theorem filter_of_bodyComponents_append {body front : List (List Char)} {cs : List Component}
    (h : bodyComponents body = bodyComponents front ++ cs) :
    ∃ back, body.filter (!isIdle ·) = front.filter (!isIdle ·) ++ back ∧
      back.length = cs.length := by
  obtain ⟨front', back, hbody, hfront, hback⟩ := List.map_eq_append_iff.mp h
  have hsame : front' = front.filter (!isIdle ·) := by
    refine (List.map_inj_right ?_).mp hfront
    intro a b hab
    by_cases ha : a = ['.', '.'] <;> by_cases hb : b = ['.', '.'] <;> simp_all
  refine ⟨back, by rw [hbody, hsame], ?_⟩
  rw [← hback, List.length_map]

end Path

namespace FileTree

variable {tree : FileTree} {route next target : Route} {piece : List Char}
  {body back : List (List Char)} {p q up cwd : Path}

/-! ## Piece by piece -/

/-- The pieces lead from one place of the tree to another. -/
def Leads (tree : FileTree) (route : Route) (body : List (List Char)) (target : Route) : Prop :=
  body.foldlM tree.step route = .ok target

theorem leads_nil_iff : tree.Leads route [] target ↔ route = target := by
  simp [Leads, pure, Except.pure]

theorem leads_append_iff :
    tree.Leads route (body ++ back) target ↔
      ∃ next, tree.Leads route body next ∧ tree.Leads next back target := by
  unfold Leads
  rw [List.foldlM_append]
  cases body.foldlM tree.step route with
  | error e => simp [bind, Except.bind]
  | ok next => simp [bind, Except.bind]

theorem leads_singleton_iff :
    tree.Leads route [piece] target ↔ tree.step route piece = .ok target := by
  unfold Leads
  rw [List.foldlM_cons]
  cases tree.step route piece with
  | error e => simp [bind, Except.bind]
  | ok next => simp [bind, Except.bind, pure, Except.pure]

theorem leads_cons_iff :
    tree.Leads route (piece :: body) target ↔
      ∃ next, tree.step route piece = .ok next ∧ tree.Leads next body target := by
  rw [← List.singleton_append, leads_append_iff]
  simp only [leads_singleton_iff]

theorem hasDirectory_of_step (h : tree.step route piece = .ok next) :
    tree.hasDirectory route = true := by
  unfold step at h
  split at h
  · cases h
  · rename_i hdirectory
    simpa using hdirectory

theorem step_isIdle_iff (hidle : Path.isIdle piece = true) :
    tree.step route piece = .ok next ↔ tree.hasDirectory route = true ∧ route = next := by
  unfold step
  cases tree.hasDirectory route with
  | false => simp
  | true => simp [hidle]

theorem hasDirectory_of_leads_cons (h : tree.Leads route (piece :: body) target) :
    tree.hasDirectory route = true := by
  obtain ⟨next, hstep, -⟩ := leads_cons_iff.mp h
  exact hasDirectory_of_step hstep

theorem Leads.filter (h : tree.Leads route body target) :
    tree.Leads route (body.filter (!Path.isIdle ·)) target := by
  induction body generalizing route with
  | nil => exact h
  | cons piece body ih =>
    obtain ⟨next, hstep, hrest⟩ := leads_cons_iff.mp h
    cases hidle : Path.isIdle piece with
    | true =>
      obtain ⟨-, rfl⟩ := (step_isIdle_iff hidle).mp hstep
      rw [List.filter_cons_of_neg (by simp [hidle])]
      exact ih hrest
    | false =>
      rw [List.filter_cons_of_pos (by simp [hidle])]
      exact leads_cons_iff.mpr ⟨next, hstep, ih hrest⟩

-- An idle piece needs a directory: one that is gone on from, or one at the end.
theorem leads_of_filter (h : tree.Leads route (body.filter (!Path.isIdle ·)) target)
    (hend : tree.hasDirectory target = true ∨
      ∀ piece, body.getLast? = some piece → Path.isIdle piece = false) :
    tree.Leads route body target := by
  induction body generalizing route with
  | nil => exact h
  | cons piece body ih =>
    have hendRest : tree.hasDirectory target = true ∨
        ∀ piece, body.getLast? = some piece → Path.isIdle piece = false := by
      refine hend.imp_right fun hlast last h => hlast last ?_
      rw [List.getLast?_cons, h]
      rfl
    cases hidle : Path.isIdle piece with
    | false =>
      rw [List.filter_cons_of_pos (by simp [hidle])] at h
      obtain ⟨next, hstep, hrest⟩ := leads_cons_iff.mp h
      exact leads_cons_iff.mpr ⟨next, hstep, ih hrest hendRest⟩
    | true =>
      rw [List.filter_cons_of_neg (by simp [hidle])] at h
      have hrest := ih h hendRest
      have hdirectory : tree.hasDirectory route = true := by
        cases body with
        | cons first more => exact hasDirectory_of_leads_cons hrest
        | nil =>
          rcases hend with htarget | hlast
          · rwa [leads_nil_iff.mp hrest]
          · rw [hlast piece rfl] at hidle
            cases hidle
      exact leads_cons_iff.mpr ⟨route, (step_isIdle_iff hidle).mpr ⟨hdirectory, rfl⟩, hrest⟩

/-! ## Absolute paths -/

theorem follow_eq_ok_iff (hp : p.isAbsolute = true) :
    tree.follow p = .ok target ↔ tree.Leads [] p.anatomy.2 target := by
  rw [follow, Path.pieces_of_isAbsolute hp]
  rfl

theorem fileAt?_of_isAbsolute (hp : p.isAbsolute = true) (cwd : Path) :
    tree.fileAt? cwd p = (tree.follow p).toOption.bind tree.content? := by
  rw [fileAt?, followFrom, if_neg (Path.text_ne_empty_of_isAbsolute hp),
    Path.join_of_isAbsolute hp]
  cases tree.follow p <;> rfl

/-- Paths with the same components lead to the same place. -/
theorem follow_of_components_eq (hp : p.isAbsolute = true) (hq : q.isAbsolute = true)
    (hcomponents : q.components = p.components)
    (hend : tree.hasDirectory target = true ∨ q.EndsInComponent)
    (h : tree.follow p = .ok target) : tree.follow q = .ok target := by
  rw [Path.components_of_isAbsolute hp, Path.components_of_isAbsolute hq] at hcomponents
  have hbody := (List.cons.inj hcomponents).2
  rw [← List.append_nil (Path.bodyComponents p.anatomy.2)] at hbody
  obtain ⟨back, hback, hlength⟩ := Path.filter_of_bodyComponents_append hbody
  rw [List.length_eq_zero_iff.mp hlength, List.append_nil] at hback
  rw [follow_eq_ok_iff hp] at h
  rw [follow_eq_ok_iff hq]
  exact leads_of_filter (hback ▸ h.filter) hend

/-- The path that is shown, joined to the base again, leads to the file it was. -/
theorem fileAt?_join_shownIn {base : Path} {content : FileContent} (hp : p.isAbsolute = true)
    (hbase : base.isAbsolute = true) (hne : p.components ≠ base.components)
    (h : tree.fileAt? cwd p = some content) :
    tree.fileAt? cwd (base.join (p.shownIn base)) = some content := by
  by_cases hpre : base.components <+: p.components
  · have hjoin := Path.isAbsolute_join hbase (p.shownIn base)
    rw [fileAt?_of_isAbsolute hp] at h
    rw [fileAt?_of_isAbsolute hjoin]
    cases hfollow : tree.follow p with
    | error e => rw [hfollow] at h; cases h
    | ok route =>
      rw [hfollow] at h
      rw [follow_of_components_eq hp hjoin (Path.components_join_shownIn hp base)
        (.inr (Path.endsInComponent_join_shownIn hpre hbase hne)) hfollow]
      exact h
  · rw [Path.shownIn_eq_self hpre, Path.join_of_isAbsolute hp]
    exact h

/-- What a path leads through is a directory. -/
theorem follow_of_parent? (hp : p.isAbsolute = true) (hup : p.parent? = some up)
    (h : tree.follow p = .ok target) :
    ∃ above, tree.follow up = .ok above ∧ tree.hasDirectory above = true := by
  have hupAbsolute : up.isAbsolute = true := by rw [Path.isAbsolute_of_parent? hup, hp]
  obtain ⟨c, hc, -⟩ := Path.components_of_parent? hup
  rw [Path.components_of_isAbsolute hp, Path.components_of_isAbsolute hupAbsolute,
    List.cons_append] at hc
  obtain ⟨back, hback, hlength⟩ :=
    Path.filter_of_bodyComponents_append (List.cons.inj hc).2
  rw [follow_eq_ok_iff hp] at h
  obtain ⟨above, hfront, hrest⟩ := leads_append_iff.mp (hback ▸ h.filter)
  cases back with
  | nil => cases hlength
  | cons last back =>
    have hdirectory := hasDirectory_of_leads_cons hrest
    refine ⟨above, ?_, hdirectory⟩
    rw [follow_eq_ok_iff hupAbsolute]
    exact leads_of_filter hfront (.inl hdirectory)

theorem follow_of_atOrAbove {dir : Path} (habove : p.AtOrAbove dir) (hp : p.isAbsolute = true)
    (h : tree.follow p = .ok target) (hdirectory : tree.hasDirectory target = true) :
    dir.isAbsolute = true ∧
      ∃ above, tree.follow dir = .ok above ∧ tree.hasDirectory above = true := by
  induction habove with
  | self => exact ⟨hp, target, h, hdirectory⟩
  | parent _ hup ih =>
    obtain ⟨hdir, above, hfollow, -⟩ := ih
    exact ⟨by rw [Path.isAbsolute_of_parent? hup, hdir], follow_of_parent? hdir hup hfollow⟩

/-! ## One name further -/

/-- Whether an entry can have this name. -/
structure IsEntryName (name : List Char) : Prop where
  no_slash : ∀ c ∈ name, (c == '/') = false
  not_isIdle : Path.isIdle name = false
  ne_parent : name ≠ ['.', '.']

namespace IsEntryName

variable {name : List Char}

instance : Decidable (IsEntryName name) :=
  decidable_of_iff ((∀ c ∈ name, (c == '/') = false) ∧ Path.isIdle name = false ∧ name ≠ ['.', '.'])
    ⟨fun ⟨hslash, hidle, hparent⟩ => ⟨hslash, hidle, hparent⟩,
      fun h => ⟨h.no_slash, h.not_isIdle, h.ne_parent⟩⟩

theorem pieces_eq (h : IsEntryName name) :
    Path.pieces (String.ofList name).toList = [name] := by
  rw [String.toList_ofList, Path.pieces_of_clean h.no_slash]

theorem not_isAbsolute (h : IsEntryName name) : Path.isAbsolute ⟨String.ofList name⟩ = false := by
  rw [Path.isAbsolute, String.toList_ofList]
  cases name with
  | nil => rfl
  | cons c rest => simpa using h.no_slash c List.mem_cons_self

theorem components_join (h : IsEntryName name) (hp : p.isAbsolute = true) :
    (p.join ⟨String.ofList name⟩).components = p.components ++ [.normal name] := by
  rw [Path.components_join (Path.text_ne_empty_of_isAbsolute hp) h.not_isAbsolute, h.pieces_eq,
    Path.bodyComponents_cons_of_not_isIdle h.not_isIdle, if_neg h.ne_parent]
  rfl

theorem follow_join (h : IsEntryName name) (hp : p.isAbsolute = true)
    (hfollow : tree.follow p = .ok route) :
    tree.follow (p.join ⟨String.ofList name⟩) = tree.step route name := by
  have hjoin := Path.isAbsolute_join hp ⟨String.ofList name⟩
  obtain ⟨front, hanatomy, hbody, -⟩ :=
    Path.anatomy_join (Path.text_ne_empty_of_isAbsolute hp) h.not_isAbsolute
  rw [h.pieces_eq] at hanatomy
  have hfront : tree.Leads [] front route := by
    rw [follow_eq_ok_iff hp] at hfollow
    rcases hbody with hsame | hslash
    · rwa [hsame] at hfollow
    · rw [hslash] at hfollow
      obtain ⟨next, hnext, hlast⟩ := leads_append_iff.mp hfollow
      obtain ⟨-, rfl⟩ := (step_isIdle_iff rfl).mp (leads_singleton_iff.mp hlast)
      exact hnext
  rw [follow, Path.pieces_of_isAbsolute hjoin, hanatomy, List.tail_cons, List.foldlM_append]
  rw [Leads] at hfront
  rw [hfront]
  change [name].foldlM tree.step route = _
  rw [List.foldlM_cons]
  cases tree.step route name <;> rfl

theorem step_eq (h : IsEntryName name) (hdirectory : tree.hasDirectory route = true) :
    tree.step route name =
      if tree.has (route ++ [name]) then .ok (route ++ [name]) else .error .missing := by
  simp [step, hdirectory, h.not_isIdle, h.ne_parent]

/-- The file of a name in a directory. -/
theorem fileAt?_join (h : IsEntryName name) (hp : p.isAbsolute = true)
    (hfollow : tree.follow p = .ok route) (hdirectory : tree.hasDirectory route = true)
    (cwd : Path) :
    tree.fileAt? cwd (p.join ⟨String.ofList name⟩) = tree.content? (route ++ [name]) := by
  rw [fileAt?_of_isAbsolute (Path.isAbsolute_join hp _), h.follow_join hp hfollow,
    h.step_eq hdirectory]
  cases hhas : tree.has (route ++ [name]) with
  | true => rfl
  | false =>
    rw [has, Bool.or_eq_false_iff] at hhas
    exact (Option.isSome_eq_false_iff.mp hhas.1 |> Option.isNone_iff_eq_none.mp).symm

end IsEntryName

/-- A path, and names one after another below it. -/
def joinNames (p : Path) (names : Route) : Path :=
  names.foldl (fun path name => path.join ⟨String.ofList name⟩) p

theorem joinNames_cons (p : Path) (name : List Char) (names : Route) :
    joinNames p (name :: names) = joinNames (p.join ⟨String.ofList name⟩) names :=
  rfl

theorem isAbsolute_joinNames (hp : p.isAbsolute = true) (names : Route) :
    (joinNames p names).isAbsolute = true := by
  induction names generalizing p with
  | nil => exact hp
  | cons name names ih => exact ih (Path.isAbsolute_join hp _)

/-! ## Trees as a file system has them -/

/-- Every entry has a route of its own, made of names, and nothing is below a file. -/
structure IsProper (tree : FileTree) : Prop where
  areNames : ∀ entry ∈ tree.entries, ∀ name ∈ entry.1, IsEntryName name
  nodup : (tree.entries.map Prod.fst).Nodup
  top : ∀ content, ([], FileEntry.file content) ∉ tree.entries
  leaf : ∀ route content, (route, FileEntry.file content) ∈ tree.entries →
    ∀ entry ∈ tree.entries, route <+: entry.1 → entry.1 = route

theorem lookup_of_mem {α β : Type} [BEq α] [LawfulBEq α] {entries : List (α × β)} {a : α} {b : β}
    (hnodup : (entries.map Prod.fst).Nodup) (h : (a, b) ∈ entries) :
    entries.lookup a = some b := by
  induction entries with
  | nil => cases h
  | cons entry rest ih =>
    obtain ⟨hnot, hrest⟩ := List.nodup_cons.mp hnodup
    rcases List.mem_cons.mp h with rfl | hmem
    · exact List.lookup_cons_self
    · have hne : (a == entry.1) = false := by
        refine beq_false_of_ne fun heq => hnot ?_
        exact heq ▸ List.mem_map_of_mem hmem
      rw [List.lookup_cons, hne]
      exact ih hrest hmem

theorem mem_of_content? {content : FileContent} (h : tree.content? route = some content) :
    (route, FileEntry.file content) ∈ tree.entries := by
  unfold content? at h
  split at h
  · rename_i found hentry
    obtain rfl := Option.some.inj h
    obtain ⟨front, back, hentries, -⟩ := List.lookup_eq_some_iff.mp hentry
    rw [hentries]
    exact List.mem_append_right _ List.mem_cons_self
  · cases h

theorem any_isPrefixOf {entry : Route × FileEntry} (hmem : entry ∈ tree.entries)
    (hpre : route <+: entry.1) : tree.entries.any (route.isPrefixOf ·.1) = true :=
  List.any_eq_true.mpr ⟨entry, hmem, List.isPrefixOf_iff_prefix.mpr hpre⟩

theorem has_of_isPrefix {entry : Route × FileEntry} (hmem : entry ∈ tree.entries)
    (hpre : route <+: entry.1) : tree.has route = true := by
  unfold has hasDirectory
  cases tree.content? route with
  | some content => rfl
  | none => simp [any_isPrefixOf hmem hpre]

namespace IsProper

variable (hproper : tree.IsProper)
include hproper

theorem content?_of_mem {content : FileContent}
    (h : (route, FileEntry.file content) ∈ tree.entries) :
    tree.content? route = some content := by
  rw [content?, entry?, lookup_of_mem hproper.nodup h]

theorem hasDirectory_of_isPrefix {entry : Route × FileEntry} (hmem : entry ∈ tree.entries)
    (hpre : route <+: entry.1) (hne : entry.1 ≠ route) : tree.hasDirectory route = true := by
  unfold hasDirectory
  cases hcontent : tree.content? route with
  | none => simp [any_isPrefixOf hmem hpre]
  | some content =>
    exact absurd (hproper.leaf route content (mem_of_content? hcontent) entry hmem hpre) hne

/-- The path of a directory, with the names on the way to an entry, leads there. -/
theorem follow_joinNames {entry : Route × FileEntry} (hmem : entry ∈ tree.entries)
    {names : Route} (hp : p.isAbsolute = true) (hfollow : tree.follow p = .ok route)
    (hentry : entry.1 = route ++ names) :
    tree.follow (joinNames p names) = .ok (route ++ names) := by
  induction names generalizing p route with
  | nil => rwa [List.append_nil]
  | cons name names ih =>
    have hname : IsEntryName name := by
      apply hproper.areNames entry hmem
      rw [hentry]
      exact List.mem_append_right _ List.mem_cons_self
    have hdirectory : tree.hasDirectory route = true := by
      apply hproper.hasDirectory_of_isPrefix hmem
      · rw [hentry]
        exact List.prefix_append _ _
      · rw [hentry]
        simp
    have hsplit : entry.1 = route ++ [name] ++ names := by rw [hentry, List.append_cons]
    have hstep : tree.follow (p.join ⟨String.ofList name⟩) = .ok (route ++ [name]) := by
      rw [hname.follow_join hp hfollow, hname.step_eq hdirectory, if_pos]
      exact has_of_isPrefix hmem (hsplit ▸ List.prefix_append _ _)
    rw [List.append_cons]
    exact ih (Path.isAbsolute_join hp _) hstep hsplit

theorem components_joinNames {entry : Route × FileEntry} (hmem : entry ∈ tree.entries)
    {names : Route} (hp : p.isAbsolute = true) (hnames : names ⊆ entry.1) :
    (joinNames p names).components = p.components ++ names.map .normal := by
  induction names generalizing p with
  | nil => exact (List.append_nil _).symm
  | cons name names ih =>
    obtain ⟨hname, hrest⟩ := List.cons_subset.mp hnames
    rw [joinNames_cons, ih (Path.isAbsolute_join hp _) hrest,
      (hproper.areNames entry hmem name hname).components_join hp, List.append_assoc]
    rfl

end IsProper

/-! ## One directory more -/

section addDirectory

variable {added : Route} (hadded : tree.content? added = none)
include hadded

theorem content?_addDirectory (route : Route) :
    (tree.addDirectory added).content? route = tree.content? route := by
  unfold addDirectory
  split
  · rfl
  · by_cases heq : route = added
    · rw [heq, hadded, content?, entry?, List.lookup_cons_self]
    · rw [content?, entry?, List.lookup_cons, beq_false_of_ne heq]
      rfl

theorem hasDirectory_addDirectory (h : tree.hasDirectory route = true) :
    (tree.addDirectory added).hasDirectory route = true := by
  rw [hasDirectory, content?_addDirectory hadded]
  unfold addDirectory
  split
  · exact h
  · rw [hasDirectory] at h
    rw [List.any_cons]
    revert h
    simp only [Bool.or_eq_true, Bool.and_eq_true]
    exact fun h => h.imp_right fun ⟨hnone, hany⟩ => ⟨hnone, .inr hany⟩

theorem has_addDirectory (h : tree.has route = true) :
    (tree.addDirectory added).has route = true := by
  rw [has, Bool.or_eq_true] at h ⊢
  rw [content?_addDirectory hadded]
  exact h.imp_right (hasDirectory_addDirectory hadded)

theorem step_addDirectory (h : tree.step route piece = .ok next) :
    (tree.addDirectory added).step route piece = .ok next := by
  have hdirectory := hasDirectory_of_step h
  unfold step at h ⊢
  rw [hdirectory] at h
  rw [hasDirectory_addDirectory hadded hdirectory]
  cases hhas : tree.has (route ++ [piece]) with
  | true =>
    rw [hhas] at h
    rwa [has_addDirectory hadded hhas]
  | false =>
    rw [hhas] at h
    -- The step does not go down, so it does not ask for an entry.
    by_cases hidle : Path.isIdle piece = true
    · rwa [if_pos hidle] at h ⊢
    · by_cases hparent : piece = ['.', '.']
      · rwa [if_neg hidle, if_pos hparent] at h ⊢
      · rw [if_neg hidle, if_neg hparent] at h
        cases h

theorem leads_addDirectory (h : tree.Leads route body target) :
    (tree.addDirectory added).Leads route body target := by
  induction body generalizing route with
  | nil => exact h
  | cons piece body ih =>
    obtain ⟨next, hstep, hrest⟩ := leads_cons_iff.mp h
    exact leads_cons_iff.mpr ⟨next, step_addDirectory hadded hstep, ih hrest⟩

theorem follow_addDirectory (hp : p.isAbsolute = true) (h : tree.follow p = .ok route) :
    (tree.addDirectory added).follow p = .ok route := by
  rw [follow_eq_ok_iff hp] at h ⊢
  exact leads_addDirectory hadded h

end addDirectory

end FileTree

end WidthCheck
