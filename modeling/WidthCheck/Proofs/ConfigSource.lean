import WidthCheck.ConfigSource
import WidthCheck.Proofs.FileTree

/-!
# The nearest configuration

The search for a configuration file goes up from the directory of the analysis and stops at the
first directory that has one. So it finds the deepest of all that there are, and what lies farther
up does not matter.
-/

namespace WidthCheck

namespace ConfigSource

variable {isFile isFile' : Path → Bool} {start dir path : Path}

/-! ## One directory -/

def plainName : Path := ⟨"width-lint.toml"⟩

def dottedName : Path := ⟨".width-lint.toml"⟩

/-- The configuration file of a directory. The plain name comes first. -/
inductive HoldsConfig (isFile : Path → Bool) (dir : Path) : Path → Prop where
  | plain (h : isFile (dir.join plainName) = true) :
      HoldsConfig isFile dir (dir.join plainName)
  | dotted (hplain : isFile (dir.join plainName) = false)
      (h : isFile (dir.join dottedName) = true) : HoldsConfig isFile dir (dir.join dottedName)

theorem inDirectory?_eq_some_iff :
    inDirectory? isFile dir = some path ↔ HoldsConfig isFile dir path := by
  change [dir.join plainName, dir.join dottedName].find? isFile = some path ↔ _
  cases hplain : isFile (dir.join plainName) with
  | true =>
    rw [List.find?_cons_of_pos hplain, Option.some_inj]
    constructor
    · rintro rfl
      exact .plain hplain
    · rintro (_ | ⟨hnot, -⟩)
      · rfl
      · rw [hplain] at hnot
        cases hnot
  | false =>
    rw [List.find?_cons_of_neg (by simp [hplain])]
    cases hdotted : isFile (dir.join dottedName) with
    | true =>
      rw [List.find?_cons_of_pos hdotted, Option.some_inj]
      constructor
      · rintro rfl
        exact .dotted hplain hdotted
      · rintro (h | -)
        · rw [hplain] at h
          cases h
        · rfl
    | false =>
      rw [List.find?_cons_of_neg (by simp [hdotted])]
      constructor
      · rintro ⟨⟩
      · rintro (h | ⟨-, h⟩)
        · rw [hplain] at h
          cases h
        · rw [hdotted] at h
          cases h

/-- Whether a directory has the same configuration files in two file systems. -/
def AgreeIn (isFile isFile' : Path → Bool) (dir : Path) : Prop :=
  ∀ name ∈ projectNames, isFile (dir.join name) = isFile' (dir.join name)

theorem AgreeIn.symm (h : AgreeIn isFile isFile' dir) : AgreeIn isFile' isFile dir :=
  fun name hname => (h name hname).symm

theorem HoldsConfig.of_agreeIn (hconfig : HoldsConfig isFile dir path)
    (h : AgreeIn isFile isFile' dir) : HoldsConfig isFile' dir path := by
  have hplainSame := h plainName List.mem_cons_self
  have hdottedSame := h dottedName (List.mem_cons_of_mem _ List.mem_cons_self)
  cases hconfig with
  | plain hplain => exact .plain (hplainSame ▸ hplain)
  | dotted hplain hdotted => exact .dotted (hplainSame ▸ hplain) (hdottedSame ▸ hdotted)

/-! ## All directories above -/

/-- The configuration file of the deepest directory, at `start` or above it, that has one. -/
structure NearestConfig (isFile : Path → Bool) (start dir path : Path) : Prop where
  atOrAbove : start.AtOrAbove dir
  holds : HoldsConfig isFile dir path
  nearest : ∀ other found, start.AtOrAbove other → HoldsConfig isFile other found →
    other.components.length ≤ dir.components.length

/-- No directory at `start` or above it has a configuration file. -/
def NoConfig (isFile : Path → Bool) (start : Path) : Prop :=
  ∀ dir path, start.AtOrAbove dir → ¬HoldsConfig isFile dir path

theorem inDirectory?_eq_none_iff :
    inDirectory? isFile dir = none ↔ ∀ path, ¬HoldsConfig isFile dir path := by
  rw [Option.eq_none_iff_forall_ne_some]
  simp only [ne_eq, inDirectory?_eq_some_iff]

/-- The search finds the configuration file of the deepest directory that has one. -/
theorem inProject?_eq_some_iff :
    inProject? isFile start = some path ↔ ∃ dir, NearestConfig isFile start dir path := by
  rw [inProject?, List.findSome?_eq_some_iff]
  have hsorted := start.pairwise_ancestors
  constructor
  · rintro ⟨front, dir, back, hsplit, hdir, hfront⟩
    have hmem : ∀ other, start.AtOrAbove other ↔ other ∈ front ∨ other = dir ∨ other ∈ back := by
      intro other
      rw [← Path.mem_ancestors_iff, hsplit, List.mem_append, List.mem_cons]
    rw [hsplit, List.pairwise_append, List.pairwise_cons] at hsorted
    obtain ⟨-, ⟨hback, -⟩, -⟩ := hsorted
    refine ⟨dir, (hmem dir).mpr (.inr (.inl rfl)), inDirectory?_eq_some_iff.mp hdir, ?_⟩
    intro other found hother hfound
    rcases (hmem other).mp hother with hnear | rfl | hfar
    · exact absurd hfound (inDirectory?_eq_none_iff.mp (hfront other hnear) found)
    · exact Nat.le_refl _
    · exact Nat.le_of_lt (hback other hfar)
  · rintro ⟨dir, hdir, hholds, hnearest⟩
    obtain ⟨front, back, hsplit⟩ := List.append_of_mem (Path.mem_ancestors_iff.mpr hdir)
    refine ⟨front, dir, back, hsplit, inDirectory?_eq_some_iff.mpr hholds, ?_⟩
    intro other hother
    rw [inDirectory?_eq_none_iff]
    intro found hfound
    have habove : start.AtOrAbove other := by
      rw [← Path.mem_ancestors_iff, hsplit]
      exact List.mem_append_left _ hother
    rw [hsplit, List.pairwise_append] at hsorted
    have hdeeper := hsorted.2.2 other hother dir List.mem_cons_self
    exact absurd (hnearest other found habove hfound) (Nat.not_le_of_lt hdeeper)

theorem inProject?_eq_none_iff : inProject? isFile start = none ↔ NoConfig isFile start := by
  rw [inProject?, List.findSome?_eq_none_iff]
  simp only [inDirectory?_eq_none_iff, Path.mem_ancestors_iff]
  exact ⟨fun h dir path hdir => h dir hdir path, fun h dir hdir path => h dir path hdir⟩

/-! ## The whole search -/

/-- Where the configuration comes from, in the order of preference. -/
inductive Resolves (isFile : Path → Bool) (start : Path) (userDirectory : Option Path) :
    Option Path → ConfigSource → Prop where
  | asked (path : Path) : Resolves isFile start userDirectory (some path) (.explicit path)
  | project {dir path : Path} (h : NearestConfig isFile start dir path) :
      Resolves isFile start userDirectory none (.project path)
  | user {directory : Path} (hnone : NoConfig isFile start)
      (hdirectory : userDirectory = some directory)
      (h : isFile (directory.join userName) = true) :
      Resolves isFile start userDirectory none (.user (directory.join userName))
  | defaults (hnone : NoConfig isFile start)
      (h : ∀ directory, userDirectory = some directory →
        isFile (directory.join userName) = false) :
      Resolves isFile start userDirectory none .defaults

theorem inUser?_of_isFile {directory : Path} (h : isFile (directory.join userName) = true) :
    inUser? isFile (some directory) = some (directory.join userName) :=
  Option.filter_some_pos h

theorem inUser?_eq_none_iff {userDirectory : Option Path} :
    inUser? isFile userDirectory = none ↔
      ∀ directory, userDirectory = some directory →
        isFile (directory.join userName) = false := by
  cases userDirectory with
  | none => simp [inUser?]
  | some directory => simp [inUser?, Option.filter_eq_none_iff]

theorem Resolves.resolve_eq {asked userDirectory : Option Path} {source : ConfigSource}
    (h : Resolves isFile start userDirectory asked source) :
    resolve isFile start asked userDirectory = source := by
  unfold resolve
  cases h with
  | asked path => rfl
  | project hnearest => rw [inProject?_eq_some_iff.mpr ⟨_, hnearest⟩]
  | user hnone hdirectory hfile =>
    rw [inProject?_eq_none_iff.mpr hnone, hdirectory, inUser?_of_isFile hfile]
  | defaults hnone huser =>
    rw [inProject?_eq_none_iff.mpr hnone, inUser?_eq_none_iff.mpr huser]

theorem resolves_resolve (isFile : Path → Bool) (start : Path) (asked userDirectory : Option Path) :
    Resolves isFile start userDirectory asked (resolve isFile start asked userDirectory) := by
  cases asked with
  | some path => exact .asked path
  | none =>
    unfold resolve
    cases hproject : inProject? isFile start with
    | some path =>
      obtain ⟨dir, hnearest⟩ := inProject?_eq_some_iff.mp hproject
      exact .project hnearest
    | none =>
      have hnone := inProject?_eq_none_iff.mp hproject
      cases huser : inUser? isFile userDirectory with
      | none => exact .defaults hnone (inUser?_eq_none_iff.mp huser)
      | some path =>
        cases userDirectory with
        | none => cases huser
        | some directory =>
          obtain ⟨hpath, hfile⟩ := Option.filter_eq_some_iff.mp huser
          obtain rfl := Option.some.inj hpath
          exact .user hnone rfl hfile

theorem resolve_eq_project_iff {userDirectory : Option Path} :
    resolve isFile start none userDirectory = .project path ↔
      ∃ dir, NearestConfig isFile start dir path := by
  constructor
  · intro h
    have hresolves := resolves_resolve isFile start none userDirectory
    rw [h] at hresolves
    cases hresolves with
    | project hnearest => exact ⟨_, hnearest⟩
  · rintro ⟨dir, hnearest⟩
    exact (Resolves.project hnearest).resolve_eq

/-! ## What does not matter -/

/-- Only the configuration files from the nearest one on matter. -/
theorem NearestConfig.of_agreeIn (h : NearestConfig isFile start dir path)
    (hagree : ∀ near, start.AtOrAbove near → dir.components.length ≤ near.components.length →
      AgreeIn isFile isFile' near) :
    NearestConfig isFile' start dir path where
  atOrAbove := h.atOrAbove
  holds := h.holds.of_agreeIn (hagree dir h.atOrAbove (Nat.le_refl _))
  nearest other found hother hfound := by
    -- A deeper one would have been there before.
    refine Nat.le_of_not_lt fun hdeeper => ?_
    have hsame := hagree other hother (Nat.le_of_lt hdeeper)
    exact absurd (h.nearest other found hother (hfound.of_agreeIn hsame.symm))
      (Nat.not_le_of_lt hdeeper)

theorem isEntryName_of_mem_projectNames {name : Path} (h : name ∈ projectNames) :
    ∃ chars, name = ⟨String.ofList chars⟩ ∧ FileTree.IsEntryName chars := by
  refine ⟨name.text.toList, by rw [String.ofList_toList], ?_⟩
  revert name
  decide

-- A directory is no regular file, whatever its name.
theorem agreeIn_addDirectory {tree : FileTree} {cwd : Path} {route added : Route}
    (hstart : start.isAbsolute = true) (hfollow : tree.follow start = .ok route)
    (hdirectory : tree.hasDirectory route = true) (hadded : tree.content? added = none)
    (habove : start.AtOrAbove dir) :
    AgreeIn (tree.isFile cwd) ((tree.addDirectory added).isFile cwd) dir := by
  intro name hname
  obtain ⟨chars, rfl, hchars⟩ := isEntryName_of_mem_projectNames hname
  obtain ⟨hdir, above, hfollowDir, hdirectoryDir⟩ :=
    FileTree.follow_of_atOrAbove habove hstart hfollow hdirectory
  rw [FileTree.isFile, FileTree.isFile, hchars.fileAt?_join hdir hfollowDir hdirectoryDir,
    hchars.fileAt?_join hdir (FileTree.follow_addDirectory hadded hdir hfollowDir)
      (FileTree.hasDirectory_addDirectory hadded hdirectoryDir),
    FileTree.content?_addDirectory hadded]

/-- The configuration is the one asked for, or else that of the deepest directory, at the start or
above it, that has one, or else that of the user, or else the defaults. The directories above are
those of the prefixes of the path. Once a configuration is found, files that are farther up do not
matter, and directories with the name of a configuration file never do. -/
theorem resolve_takes_nearest (isFile : Path → Bool) (start : Path)
    (asked userDirectory : Option Path) :
    (∀ source, resolve isFile start asked userDirectory = source ↔
      Resolves isFile start userDirectory asked source) ∧
    (∀ front, (∃ dir, start.AtOrAbove dir ∧ dir.components = front) ↔
      front <+: start.components ∧ (start.isAbsolute = true → front ≠ [])) ∧
    (∀ dir path, NearestConfig isFile start dir path →
      ∀ (isFile' : Path → Bool) (userDirectory' : Option Path),
        (∀ near, start.AtOrAbove near → dir.components.length ≤ near.components.length →
          AgreeIn isFile isFile' near) →
        resolve isFile' start none userDirectory' = .project path) ∧
    ∀ (tree : FileTree) (cwd : Path) (route added : Route), start.isAbsolute = true →
      tree.follow start = .ok route → tree.hasDirectory route = true →
      tree.content? added = none →
      ∀ path, resolve ((tree.addDirectory added).isFile cwd) start none userDirectory =
          .project path ↔
        resolve (tree.isFile cwd) start none userDirectory = .project path := by
  refine ⟨fun source => ⟨?_, Resolves.resolve_eq⟩, fun front => Path.exists_atOrAbove_iff, ?_, ?_⟩
  · rintro rfl
    exact resolves_resolve isFile start asked userDirectory
  · intro dir path hnearest isFile' userDirectory' hagree
    exact resolve_eq_project_iff.mpr ⟨dir, hnearest.of_agreeIn hagree⟩
  · intro tree cwd route added hstart hfollow hdirectory hadded path
    have hagree : ∀ dir, start.AtOrAbove dir →
        AgreeIn (tree.isFile cwd) ((tree.addDirectory added).isFile cwd) dir :=
      fun dir => agreeIn_addDirectory hstart hfollow hdirectory hadded
    rw [resolve_eq_project_iff, resolve_eq_project_iff]
    constructor
    · rintro ⟨dir, hnearest⟩
      exact ⟨dir, hnearest.of_agreeIn fun near hnear _ => (hagree near hnear).symm⟩
    · rintro ⟨dir, hnearest⟩
      exact ⟨dir, hnearest.of_agreeIn fun near hnear _ => hagree near hnear⟩

/-- The directory `net` has no configuration file, and the one above it has a dotted one. -/
def nestedProject : FileTree := ⟨[
  (["p".toList, "src".toList, ".width-lint.toml".toList], .file (.binary [])),
  (["p".toList, "src".toList, "net".toList], .directory)]⟩

def nestedStart : Path := ⟨"/p/src/net"⟩

theorem nestedProject_nearest :
    NearestConfig (nestedProject.isFile ⟨"/"⟩) nestedStart ⟨"/p/src"⟩
      ⟨"/p/src/.width-lint.toml"⟩ where
  atOrAbove := .parent .self (by decide +kernel)
  holds := .dotted (by decide +kernel) (by decide +kernel)
  nearest := by
    intro other found hother hfound
    have hdepth : ∀ dir ∈ nestedStart.ancestors,
        inDirectory? (nestedProject.isFile ⟨"/"⟩) dir ≠ none →
          dir.components.length ≤ (Path.components ⟨"/p/src"⟩).length := by
      decide +kernel
    apply hdepth other (Path.mem_ancestors_iff.mpr hother)
    rw [inDirectory?_eq_some_iff.mpr hfound]
    exact Option.some_ne_none found

-- A file at the top, and a directory of the plain name in `net`, change nothing.
theorem nestedProject_keeps_nearest :
    NearestConfig (nestedProject.isFile ⟨"/"⟩) nestedStart ⟨"/p/src"⟩
        ⟨"/p/src/.width-lint.toml"⟩ ∧
      resolve ((nestedProject.write ["width-lint.toml".toList] (.binary [])).isFile ⟨"/"⟩)
          nestedStart none (some ⟨"/home"⟩) = .project ⟨"/p/src/.width-lint.toml"⟩ ∧
      resolve ((nestedProject.addDirectory
            ["p".toList, "src".toList, "net".toList, "width-lint.toml".toList]).isFile ⟨"/"⟩)
          nestedStart none none = .project ⟨"/p/src/.width-lint.toml"⟩ := by
  obtain ⟨hresolve, -, hfarther, hdirectories⟩ :=
    resolve_takes_nearest (nestedProject.isFile ⟨"/"⟩) nestedStart none none
  refine ⟨nestedProject_nearest, ?_, ?_⟩
  · apply hfarther ⟨"/p/src"⟩ _ nestedProject_nearest
    intro near hnear
    have hall : ∀ dir ∈ nestedStart.ancestors,
        (Path.components ⟨"/p/src"⟩).length ≤ dir.components.length →
        ∀ name ∈ projectNames, nestedProject.isFile ⟨"/"⟩ (dir.join name) =
          (nestedProject.write ["width-lint.toml".toList] (.binary [])).isFile ⟨"/"⟩
            (dir.join name) := by
      decide +kernel
    exact hall near (Path.mem_ancestors_iff.mpr hnear)
  · rw [hdirectories nestedProject ⟨"/"⟩ ["p".toList, "src".toList, "net".toList]
      ["p".toList, "src".toList, "net".toList, "width-lint.toml".toList] rfl rfl rfl rfl, hresolve]
    exact .project nestedProject_nearest

end ConfigSource

end WidthCheck
