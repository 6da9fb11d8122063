import Mathlib.Data.List.Basic
import WidthCheck.CommandLine.Output
import WidthCheck.Proofs.FileTree
import WidthCheck.Proofs.Linter.Independence

/-!
# The file of a finding

A finding names its file as the path is shown. To show the lines around the finding, that path is
joined to the base and read. What is read is the text that the finding was made in, whether the root
of the analysis is a directory or a file.
-/

namespace WidthCheck

open CommandLine (prettyOutput summary)

namespace FileTree

variable {tree : FileTree} {route : Route} {p : Path}

theorem mem_filesBelow {names : Route} {content : FileContent}
    (h : (names, content) ∈ tree.filesBelow route) :
    names ≠ [] ∧ (route ++ names, FileEntry.file content) ∈ tree.entries := by
  obtain ⟨⟨full, entry⟩, hmem, hentry⟩ := List.mem_filterMap.mp h
  dsimp only at hentry
  split at hentry
  · rename_i hpre
    cases hentry
    rw [List.isPrefixOf?_eq_some_iff_append_eq] at hpre
    exact ⟨List.cons_ne_nil _ _, hpre ▸ hmem⟩
  · cases hentry

-- Only the top has no path above it.
theorem eq_nil_of_follow (hp : p.isAbsolute = true) (htop : p.parent? = none)
    (h : tree.follow p = .ok route) : route = [] := by
  have hnone : Path.bodyComponents p.anatomy.2 = [] := by
    rcases Path.components_of_parent?_eq_none htop with hnil | hroot
    · exact absurd hnil (Path.components_ne_nil_of_isAbsolute hp)
    · rw [Path.components_of_isAbsolute hp] at hroot
      exact (List.cons.inj hroot).2
  have hfilter := ((follow_eq_ok_iff hp).mp h).filter
  rw [List.map_eq_nil_iff.mp hnone] at hfilter
  exact (leads_nil_iff.mp hfilter).symm

end FileTree

namespace Linter

variable {linter : Linter} {w : Workspace} {request : LintRequest} {found : List SourceFile}
  {result : LintResult}

/-! ## Where files are found -/

/-- What makes a file one that can be read again from the path that is shown. -/
structure Readable (linter : Linter) (w : Workspace) (file : SourceFile) : Prop where
  isAbsolute : file.path.isAbsolute = true
  fileAt : w.tree.fileAt? w.cwd file.path = some file.content
  base_isAbsolute : linter.base.isAbsolute = true
  ne_base : file.path.components ≠ linter.base.components

theorem root_of_ofRequest {isFile : Path → Bool} {cwd : Path} (hcwd : cwd.isAbsolute = true)
    (h : ofRequest isFile cwd request = .ok linter) :
    linter.root.isAbsolute = true ∧ linter.base = baseOf (isFile linter.root) linter.root := by
  simp only [ofRequest] at h
  split at h
  · cases h
  · cases h
    exact ⟨Path.isAbsolute_join hcwd _, rfl⟩

theorem readable_file (hproper : w.tree.IsProper) (hroot : linter.root.isAbsolute = true)
    (hbase : linter.base = baseOf (w.tree.isFile w.cwd linter.root) linter.root) {route : Route}
    {content : FileContent} (hfollow : w.tree.follow linter.root = .ok route)
    (hcontent : w.tree.content? route = some content) :
    linter.Readable w { path := linter.root, content } := by
  have hfile : w.tree.fileAt? w.cwd linter.root = some content := by
    rw [FileTree.fileAt?_of_isAbsolute hroot, hfollow]
    exact hcontent
  rw [FileTree.isFile, hfile, Option.isSome_some, baseOf, if_pos rfl] at hbase
  cases hparent : linter.root.parent? with
  | none =>
    rw [FileTree.eq_nil_of_follow hroot hparent hfollow] at hcontent
    exact absurd (FileTree.mem_of_content? hcontent) (hproper.top content)
  | some up =>
    rw [hparent, Option.getD_some] at hbase
    refine ⟨hroot, hfile, ?_, ?_⟩
    · rw [hbase, Path.isAbsolute_of_parent? hparent, hroot]
    · obtain ⟨c, hc, -⟩ := Path.components_of_parent? hparent
      rw [hbase, hc]
      simp

theorem readable_below (hproper : w.tree.IsProper) (hroot : linter.root.isAbsolute = true)
    (hbase : linter.base = baseOf (w.tree.isFile w.cwd linter.root) linter.root)
    {route names : Route} {content : FileContent} (hfollow : w.tree.follow linter.root = .ok route)
    (hnone : w.tree.content? route = none)
    (hbelow : (names, content) ∈ w.tree.filesBelow route) :
    linter.Readable w { path := (linter.ignoreScope w route).pathOf names, content } := by
  have hnoFile : w.tree.fileAt? w.cwd linter.root = none := by
    rw [FileTree.fileAt?_of_isAbsolute hroot, hfollow]
    exact hnone
  rw [FileTree.isFile, hnoFile, Option.isSome_none, baseOf, if_neg Bool.false_ne_true] at hbase
  obtain ⟨hne, hmem⟩ := FileTree.mem_filesBelow hbelow
  have habsolute := FileTree.isAbsolute_joinNames hroot names
  refine ⟨habsolute, ?_, by rw [hbase, hroot], ?_⟩
  · show w.tree.fileAt? w.cwd (FileTree.joinNames linter.root names) = some content
    rw [FileTree.fileAt?_of_isAbsolute habsolute, hproper.follow_joinNames hmem hroot hfollow rfl]
    exact hproper.content?_of_mem hmem
  · show (FileTree.joinNames linter.root names).components ≠ linter.base.components
    rw [hproper.components_joinNames hmem hroot (List.subset_append_right _ _), hbase]
    simpa using hne

theorem readable_of_discover (hproper : w.tree.IsProper) (hcwd : w.cwd.isAbsolute = true)
    (hlinter : ofRequest (w.tree.isFile w.cwd) w.cwd request = .ok linter)
    (hfound : linter.discover w = .ok found) {file : SourceFile} (hfile : file ∈ found) :
    linter.Readable w file := by
  obtain ⟨hroot, hbase⟩ := root_of_ofRequest hcwd hlinter
  unfold discover at hfound
  split at hfound
  · cases hfound
  · rename_i route hfollow
    split at hfound
    · rename_i content hcontent
      cases hfound
      rw [List.mem_singleton.mp hfile]
      exact readable_file hproper hroot hbase hfollow hcontent
    · rename_i hnone
      simp only [discoverBelow] at hfound
      split at hfound
      · cases hfound
        rw [sortFiles, List.mem_mergeSort, sourcesBelow, List.mem_map] at hfile
        obtain ⟨⟨names, content⟩, hmem, rfl⟩ := hfile
        exact readable_below hproper hroot hbase hfollow hnone (List.mem_of_mem_filter hmem)
      · cases hfound

/-! ## Where findings are made -/

theorem exists_text_of_run (hresult : (linter.run w).result = .ok result) :
    ∃ found, linter.discover w = .ok found ∧
      ∀ v ∈ result.violations, ∃ text ∈ textFiles found, v ∈ linter.findings text := by
  rw [run, Outcome.andThen_result] at hresult
  cases hdiscover : linter.discover w with
  | error e => rw [hdiscover] at hresult; cases hresult
  | ok found =>
    rw [hdiscover] at hresult
    change (linter.runOn found).result = .ok result at hresult
    rw [runOn, Outcome.map, visitAll_result] at hresult
    refine ⟨found, rfl, fun v hv => ?_⟩
    split at hresult
    · cases hresult
    · cases hresult
      obtain ⟨findings, hfindings, hmem⟩ :=
        List.mem_flatten.mp (LintResult.mem_of_mem_sortAndDedup hv)
      obtain ⟨text, htext, rfl⟩ := List.mem_map.mp hfindings
      exact ⟨text, htext, hmem⟩

theorem textAt?_of_mem_findings {file : SourceFile} {text : TextFile}
    (hreadable : linter.Readable w file) (htext : file.text? = some text) {v : Violation}
    (hv : v ∈ linter.findings text) :
    w.tree.textAt? w.cwd (linter.base.join v.location.file) = some text.content := by
  rw [linter.file_of_mem_findings hv, SourceFile.path_of_text? htext, FileTree.textAt?,
    FileTree.fileAt?_join_shownIn hreadable.isAbsolute hreadable.base_isAbsolute hreadable.ne_base
      hreadable.fileAt]
  unfold SourceFile.text? at htext
  split at htext
  · cases htext
    rename_i hcontent
    rw [hcontent]
  · cases htext

/-- A run has a result if files are found and none of them can end it. -/
theorem exists_result_of_discover (hstrict : linter.strict = false)
    (hfound : linter.discover w = .ok found) : ∃ result, (linter.run w).result = .ok result := by
  have hnone : (textFiles found).find? linter.refuses = none := by
    simp [refuses, hstrict]
  have hvisit := linter.visitAll_result found
  rw [hnone] at hvisit
  rw [run, hfound, Outcome.andThen_result]
  change ∃ result, ((linter.visitAll found).result.map LintResult.sortAndDedup) = .ok result
  rw [hvisit]
  exact ⟨_, rfl⟩

theorem exists_parts (hproper : w.tree.IsProper) (hcwd : w.cwd.isAbsolute = true)
    (hlinter : ofRequest (w.tree.isFile w.cwd) w.cwd request = .ok linter)
    (hresult : (linter.run w).result = .ok result) :
    ∃ found, linter.discover w = .ok found ∧
      ∃ parts : List (Violation × TextFile), parts.map Prod.fst = result.violations ∧
        ∀ part ∈ parts, part.2 ∈ textFiles found ∧ part.1 ∈ linter.findings part.2 ∧
          (linter.base.join part.1.location.file).components = part.2.path.components ∧
          w.tree.textAt? w.cwd (linter.base.join part.1.location.file) = some part.2.content := by
  obtain ⟨found, hfound, htexts⟩ := exists_text_of_run hresult
  choose text htext hfinding using htexts
  refine ⟨found, hfound, result.violations.attach.map fun v => (v.1, text v.1 v.2), ?_, ?_⟩
  · rw [List.map_map]
    exact List.attach_map_subtype_val _
  · intro part hpart
    obtain ⟨⟨v, hv⟩, -, rfl⟩ := List.mem_map.mp hpart
    obtain ⟨file, hfile, hread⟩ := List.mem_filterMap.mp (htext v hv)
    have hreadable := readable_of_discover hproper hcwd hlinter hfound hfile
    refine ⟨htext v hv, hfinding v hv, ?_, textAt?_of_mem_findings hreadable hread (hfinding v hv)⟩
    rw [linter.file_of_mem_findings (hfinding v hv)]
    apply Path.components_join_shownIn
    rw [SourceFile.path_of_text? hread, hreadable.isAbsolute]

/-- Joined to the base again, a path that is shown has the components it had: what is shown is the
rest of them if the path lies below the base, and else the path itself. So the lines around each
finding of a run are printed from the text that the finding was made in. -/
theorem reported_path_leads_back :
    (∀ p base : Path, p.isAbsolute = true →
      (base.join (p.shownIn base)).components = p.components ∧
      (base.components <+: p.components →
        (p.shownIn base).components = p.components.drop base.components.length) ∧
      (¬base.components <+: p.components → p.shownIn base = p)) ∧
    ∀ (w : Workspace) (request : LintRequest) (linter : Linter) (result : LintResult),
      w.tree.IsProper → w.cwd.isAbsolute = true →
      ofRequest (w.tree.isFile w.cwd) w.cwd request = .ok linter →
      (linter.run w).result = .ok result →
      ∃ found, linter.discover w = .ok found ∧
        ∃ parts : List (Violation × TextFile), parts.map Prod.fst = result.violations ∧
          (∀ part ∈ parts, part.2 ∈ textFiles found ∧ part.1 ∈ linter.findings part.2 ∧
            (linter.base.join part.1.location.file).components = part.2.path.components ∧
            w.tree.textAt? w.cwd (linter.base.join part.1.location.file) =
              some part.2.content) ∧
          prettyOutput (fun file => w.tree.textAt? w.cwd (linter.base.join file)) result =
            String.join (parts.map fun part => part.1.narrate (some part.2.content) ++ "\n") ++
              summary result := by
  refine ⟨fun p base hp => ⟨Path.components_join_shownIn hp base, Path.components_shownIn,
    Path.shownIn_eq_self⟩, ?_⟩
  intro w request linter result hproper hcwd hlinter hresult
  obtain ⟨found, hfound, parts, hparts, hreads⟩ := exists_parts hproper hcwd hlinter hresult
  refine ⟨found, hfound, parts, hparts, hreads, ?_⟩
  rw [prettyOutput, ← hparts, List.map_map]
  refine congrArg (fun shown => String.join shown ++ summary result) ?_
  refine List.map_congr_left fun part hpart => ?_
  obtain ⟨-, -, -, hread⟩ := hreads part hpart
  rw [Function.comp_apply, hread]

end Linter

/-! ## A root with detours -/

def detourTree : FileTree := ⟨[
  (["p".toList, "src".toList, "lib".toList, "a.h".toList], .file (.text "long x;" longTree)),
  (["p".toList, "doc".toList], .directory)]⟩

def detourWorkspace : Workspace := { tree := detourTree, cwd := ⟨"/p/"⟩ }

def detourRequest : LintRequest :=
  { root := some ⟨"doc/..//src/."⟩, rules := [.noLong .warning], excludes := ["*.c"] }

def detourLinter : Linter where
  root := ⟨"/p/doc/..//src/."⟩
  base := ⟨"/p/doc/..//src/."⟩
  rules := [.noLong .warning]
  exclusions := [{ pattern := "*.c", glob := ⟨[.sequence, .char '.', .char 'c']⟩ }]
  config := {}
  strict := false

theorem detourTree_isProper : detourTree.IsProper where
  areNames := by decide
  nodup := by decide
  top := by simp [detourTree]
  leaf := by
    intro route content hfile
    have hroute : route = ["p".toList, "src".toList, "lib".toList, "a.h".toList] := by
      simp only [detourTree, List.mem_cons, Prod.mk.injEq, List.not_mem_nil, or_false,
        reduceCtorEq, and_false] at hfile
      exact hfile.1
    rw [hroute]
    decide

def detourFile : SourceFile :=
  { path := ⟨"/p/doc/..//src/./lib/a.h"⟩, content := .text "long x;" longTree }

theorem discover_detour :
    detourLinter.discover detourWorkspace = .ok (Linter.sortFiles [detourFile]) :=
  detourLinter.discover_of_directory detourWorkspace ["p".toList, "src".toList] rfl rfl
    (by decide +kernel)

theorem ofRequest_detour :
    Linter.ofRequest (detourTree.isFile detourWorkspace.cwd) detourWorkspace.cwd detourRequest =
      .ok detourLinter := by
  have hparse : Exclusion.parseAll (detourRequest.excludes ++
      detourRequest.config.analyzer.exclude) = .ok detourLinter.exclusions := by cbv
  unfold Linter.ofRequest
  rw [hparse]
  rfl

-- Whatever is found is found in the one text there is, and shown with it.
theorem detour_leads_back :
    detourFile.path.shownIn detourLinter.base = ⟨"lib/a.h"⟩ ∧
      (detourLinter.base.join (detourFile.path.shownIn detourLinter.base)).components =
        detourFile.path.components ∧
      detourTree.IsProper ∧
      ∃ result, (detourLinter.run detourWorkspace).result = .ok result ∧
        prettyOutput (fun file => detourTree.textAt? detourWorkspace.cwd
            (detourLinter.base.join file)) result =
          String.join (result.violations.map fun v => v.narrate (some "long x;") ++ "\n") ++
            summary result := by
  obtain ⟨hpaths, hruns⟩ := Linter.reported_path_leads_back
  refine ⟨by decide +kernel, (hpaths detourFile.path detourLinter.base rfl).1,
    detourTree_isProper, ?_⟩
  obtain ⟨result, hresult⟩ := Linter.exists_result_of_discover rfl discover_detour
  obtain ⟨found, hfound, parts, hparts, hreads, houtput⟩ := hruns detourWorkspace detourRequest
    detourLinter result detourTree_isProper rfl ofRequest_detour hresult
  refine ⟨result, hresult, houtput.trans ?_⟩
  rw [← hparts, List.map_map]
  refine congrArg (fun shown => String.join shown ++ summary result) ?_
  refine List.map_congr_left fun part hpart => ?_
  have htext : part.2 ∈ textFiles [detourFile] := by
    obtain rfl : _ = found := Except.ok.inj (discover_detour.symm.trans hfound)
    rw [← List.mergeSort_singleton (r := fun a b => (Path.compare a.path b.path).isLE) detourFile]
    exact (hreads part hpart).1
  rw [List.mem_singleton.mp htext]
  rfl

end WidthCheck
