import WidthCheck.Linter.Run
import WidthCheck.Proofs.LintResult
import WidthCheck.Rule.NoLong

/-!
# A run is the checks of its files

The findings of a run are sorted together, and those that are the same are kept once. For files
with different paths below the base that comes to checking the files one by one, in the order of
their paths.
-/

namespace WidthCheck

/-- A file that is a text. -/
structure TextFile where
  path : Path
  content : String
  tree : ParseTree

/-- The file as a text, if it is one. -/
def SourceFile.text? (file : SourceFile) : Option TextFile :=
  match file.content with
  | .text content tree => some { path := file.path, content, tree }
  | .binary _ => none

/-- The files that are texts. -/
def textFiles (files : List SourceFile) : List TextFile := files.filterMap SourceFile.text?

theorem textFiles_cons_of_text {file : SourceFile} {text : TextFile} (h : file.text? = some text)
    (rest : List SourceFile) : textFiles (file :: rest) = text :: textFiles rest :=
  List.filterMap_cons_some h

theorem textFiles_cons_of_binary {file : SourceFile} (h : file.text? = none)
    (rest : List SourceFile) : textFiles (file :: rest) = textFiles rest :=
  List.filterMap_cons_none h

theorem SourceFile.path_of_text? {file : SourceFile} {text : TextFile}
    (h : file.text? = some text) : text.path = file.path := by
  unfold text? at h
  split at h
  · cases h
    rfl
  · cases h

theorem Outcome.andThen_result {α β : Type} (x : Outcome α) (f : α → Outcome β) :
    (x.andThen f).result = x.result.bind fun a => (f a).result := by
  unfold andThen
  cases x.result <;> rfl

theorem LintResult.empty_append (r : LintResult) : LintResult.append {} r = r := by
  simp [append]

namespace Linter

variable (linter : Linter)

/-! ## One file -/

/-- Whether the syntax errors of a file end the run. -/
def refuses (file : TextFile) : Bool := file.tree.hasError && linter.strict

/-- What the rules find in a file, as they find it. -/
def findings (file : TextFile) : List Violation :=
  linter.violations file.path file.content
    (Lowering.finalState (Source.ofString file.content) file.tree.root).unit

theorem checkFile_result (file : TextFile) :
    (linter.checkFile file.path file.content file.tree).result =
      if linter.refuses file then .error (.parse file.path) else .ok (linter.findings file) := by
  unfold checkFile refuses findings
  split <;> rfl

theorem checkSource_result (file : TextFile) :
    (linter.checkSource file.path file.content file.tree).result =
      if linter.refuses file then .error (.parse file.path)
      else .ok (LintResult.sortAndDedup { violations := linter.findings file }).violations := by
  rw [checkSource, Outcome.map, checkFile_result]
  split <;> rfl

theorem visit_of_text {file : SourceFile} {text : TextFile} (h : file.text? = some text) :
    (linter.visit file).result =
      if linter.refuses text then .error (.parse text.path)
      else .ok { violations := linter.findings text, filesChecked := 1 } := by
  obtain ⟨path, content⟩ := file
  cases content with
  | binary bytes => cases h
  | text content tree =>
    cases h
    have hchecked := linter.checkFile_result { path, content, tree }
    cases hrefuses : linter.refuses { path, content, tree } with
    | true => simp_all [visit, Outcome.map, Except.map]
    | false => simp_all [visit, Outcome.map, Except.map]

theorem visit_of_binary {file : SourceFile} (h : file.text? = none) :
    (linter.visit file).result = .ok {} := by
  obtain ⟨path, content⟩ := file
  cases content with
  | binary bytes => rfl
  | text content tree => cases h

-- Allowed or not, a finding stays where it is.
theorem location_of_judge {rule : Rule} {severity : Severity} {location : Location}
    {message : String} {allowance : Allowance} {v : Violation}
    (h : judge rule severity location message allowance = some v) : v.location = location := by
  unfold judge at h
  split at h
  · cases h
    rfl
  · cases h
  · split at h
    · cases h
      rfl
    · cases h

theorem file_of_mem_findings {file : TextFile} {v : Violation} (h : v ∈ linter.findings file) :
    v.location.file = file.path.shownIn linter.base := by
  obtain ⟨rule, -, hrule⟩ := List.mem_flatMap.mp h
  obtain ⟨d, -, hd⟩ := List.mem_filterMap.mp hrule
  obtain ⟨position, -, hjudge⟩ := Option.bind_eq_some_iff.mp hd
  rw [location_of_judge hjudge]

/-! ## Many files -/

theorem visitAll_of_ok {file : SourceFile} {first : LintResult}
    (h : (linter.visit file).result = .ok first) (rest : List SourceFile) :
    (linter.visitAll (file :: rest)).result = (linter.visitAll rest).result.map first.append := by
  rw [visitAll, Outcome.andThen_result, h]
  rfl

theorem visitAll_of_error {file : SourceFile} {e : LintError}
    (h : (linter.visit file).result = .error e) (rest : List SourceFile) :
    (linter.visitAll (file :: rest)).result = .error e := by
  rw [visitAll, Outcome.andThen_result, h]
  rfl

-- By induction on the files: the first that is refused ends the run, whatever follows.
theorem visitAll_result (files : List SourceFile) :
    (linter.visitAll files).result =
      match (textFiles files).find? linter.refuses with
      | some text => .error (.parse text.path)
      | none => .ok {
          violations := ((textFiles files).map linter.findings).flatten
          filesChecked := (textFiles files).length } := by
  induction files with
  | nil => rfl
  | cons file rest ih =>
    cases htext : file.text? with
    | none =>
      have hstep := linter.visitAll_of_ok (linter.visit_of_binary htext) rest
      rw [hstep, textFiles_cons_of_binary htext, ← ih]
      cases (linter.visitAll rest).result with
      | error e => rfl
      | ok r => exact congrArg _ r.empty_append
    | some text =>
      have hvisit := linter.visit_of_text htext
      rw [textFiles_cons_of_text htext]
      cases hrefuses : linter.refuses text with
      | true =>
        rw [hrefuses] at hvisit
        rw [List.find?_cons_of_pos hrefuses, linter.visitAll_of_error hvisit]
      | false =>
        rw [hrefuses] at hvisit
        rw [List.find?_cons_of_neg (by simp [hrefuses]), linter.visitAll_of_ok hvisit, ih]
        split
        · rfl
        · simp [Except.map, LintResult.append, Nat.add_comm]

theorem compare_of_mem_findings {a b : TextFile}
    (ha : linter.base.components <+: a.path.components)
    (hb : linter.base.components <+: b.path.components) (hab : a.path.compare b.path = .lt)
    {v w : Violation} (hv : v ∈ linter.findings a) (hw : w ∈ linter.findings b) :
    v.compare w = .lt := by
  have hfile : v.location.file.compare w.location.file = .lt := by
    rw [linter.file_of_mem_findings hv, linter.file_of_mem_findings hw,
      Path.compare_shownIn ha hb, hab]
  simp [Violation.compare, compareLex, hfile]

/-- Files that are ordered by their paths. -/
abbrev Ascending (files : List SourceFile) : Prop :=
  files.Pairwise fun a b => a.path.compare b.path = .lt

theorem runOn_result {files : List SourceFile} (hfiles : Ascending files)
    (hbase : ∀ file ∈ files, linter.base.components <+: file.path.components) :
    (linter.runOn files).result =
      match (textFiles files).find? linter.refuses with
      | some text => .error (.parse text.path)
      | none => .ok {
          violations := ((textFiles files).map fun text =>
            (LintResult.sortAndDedup { violations := linter.findings text }).violations).flatten
          filesChecked := (textFiles files).length } := by
  have hparts : ((textFiles files).map linter.findings).Pairwise
      fun front back => ∀ v ∈ front, ∀ w ∈ back, v.compare w = .lt := by
    rw [List.pairwise_map, textFiles, List.pairwise_filterMap]
    refine hfiles.imp_of_mem fun ha hb hab a hatext b hbtext v hv w hw => ?_
    rw [← SourceFile.path_of_text? hatext, ← SourceFile.path_of_text? hbtext] at hab
    refine linter.compare_of_mem_findings ?_ ?_ hab hv hw
    · rw [SourceFile.path_of_text? hatext]
      exact hbase _ ha
    · rw [SourceFile.path_of_text? hbtext]
      exact hbase _ hb
  have hsorted := LintResult.sortAndDedup_flatten hparts
  rw [List.map_map] at hsorted
  rw [runOn, Outcome.map, visitAll_result]
  split
  · rfl
  · exact congrArg (fun violations => Except.ok (LintResult.mk violations _)) hsorted

theorem pairwise_sortFiles (files : List SourceFile) :
    (sortFiles files).Pairwise fun a b => (a.path.compare b.path).isLE = true :=
  List.pairwise_mergeSort (fun _ _ _ => Std.TransCmp.isLE_trans)
    (fun a b => isLE_total a.path b.path) files

theorem discover_sorted {w : Workspace} {found : List SourceFile}
    (h : linter.discover w = .ok found) :
    found.Pairwise fun a b => (a.path.compare b.path).isLE = true := by
  unfold discover at h
  split at h
  · cases h
  · split at h
    · cases h
      exact List.pairwise_singleton _ _
    · simp only [discoverBelow] at h
      split at h
      · cases h
        exact pairwise_sortFiles _
      · cases h

theorem discover_of_directory (w : Workspace) (route : Route)
    (hfollow : w.tree.follow linter.root = .ok route) (hnone : w.tree.content? route = none)
    (hfaults : (linter.ignoreScope w route).outerLayers.flatMap (·.faults) = []) :
    linter.discover w = .ok (sortFiles (linter.sourcesBelow (linter.ignoreScope w route)
      (linter.ignoreScope w route).outerLayers)) := by
  rw [discover, hfollow]
  simp only [hnone, discoverBelow, hfaults]

theorem ascending_of_discover {w : Workspace} {found : List SourceFile}
    (h : linter.discover w = .ok found)
    (hdistinct : found.Pairwise fun a b => a.path.components ≠ b.path.components) :
    Ascending found := by
  refine ((linter.discover_sorted h).and hdistinct).imp fun {a b} hab => ?_
  rcases Ordering.isLE_iff_eq_lt_or_eq_eq.mp hab.1 with hlt | heq
  · exact hlt
  · exact absurd (Path.compare_eq_eq_iff.mp heq) hab.2

/-- What a run over files, given in the order of their paths, comes to. -/
structure ChecksInOrder (w : Workspace) (ordered : List SourceFile) : Prop where
  ascending : Ascending ordered
  /-- The findings are those of checking each text alone, one text after the other. -/
  of_accepted :
    linter.strict = false ∨ (∀ text ∈ textFiles ordered, text.tree.hasError = false) →
      ∃ parts : List (List Violation),
        (textFiles ordered).map (fun text =>
          (linter.checkSource text.path text.content text.tree).result) = parts.map .ok ∧
        (linter.run w).result =
          .ok { violations := parts.flatten, filesChecked := (textFiles ordered).length }
  /-- The first text with syntax errors ends the run if the linter is strict. -/
  of_refused :
    linter.strict = true → ∀ text, (textFiles ordered).find? (·.tree.hasError) = some text →
      (linter.run w).result = .error (.parse text.path)

/-- A run checks the files it finds in the order of their paths, in whatever order they are walked,
if their paths differ, that is, their components do, and lie below the base. -/
theorem run_checksInOrder (w : Workspace) {found walked : List SourceFile}
    (hfound : linter.discover w = .ok found) (hwalked : found.Perm walked)
    (hdistinct : walked.Pairwise fun a b => a.path.components ≠ b.path.components)
    (hbase : ∀ file ∈ walked, linter.base.components <+: file.path.components) :
    ∃ ordered : List SourceFile, ordered.Perm walked ∧ linter.ChecksInOrder w ordered := by
  have hascending : Ascending found := linter.ascending_of_discover hfound
    ((hwalked.pairwise_iff fun h => h.symm).mpr hdistinct)
  have hrun : (linter.run w).result = (linter.runOn found).result := by
    rw [run, hfound, Outcome.andThen_result]
    rfl
  have hresult := linter.runOn_result hascending fun file hfile =>
    hbase file (hwalked.mem_iff.mp hfile)
  refine ⟨found, hwalked, hascending, fun haccepted => ?_, fun hstrict text htext => ?_⟩
  · have hnone : ∀ text ∈ textFiles found, linter.refuses text = false := by
      intro text htext
      rcases haccepted with hlenient | hclean
      · rw [refuses, hlenient, Bool.and_false]
      · rw [refuses, hclean text htext, Bool.false_and]
    rw [List.find?_eq_none.mpr (by simpa using hnone)] at hresult
    refine ⟨_, ?_, hrun.trans hresult⟩
    rw [List.map_map]
    refine List.map_congr_left fun text htext => ?_
    rw [checkSource_result, hnone text htext]
    rfl
  · have hrefuses : linter.refuses = fun text => text.tree.hasError := by
      funext text
      rw [refuses, hstrict, Bool.and_true]
    rw [hrun, hresult, hrefuses, htext]

end Linter

/-! ## A run over three files -/

/-- The declaration `template<long>class S;`, at the start of a text. -/
def longTemplate : Node :=
  .mk { kind := .templateDeclaration, span := ⟨0, 22⟩ } [
    .mk { kind := .other "template_parameter_list", field := some .parameters, span := ⟨8, 14⟩ } [
      .mk { kind := .parameterDeclaration, span := ⟨9, 13⟩ } [
        .mk { kind := .sizedTypeSpecifier, field := some .type, span := ⟨9, 13⟩ } []]],
    .mk { kind := .classSpecifier, span := ⟨14, 21⟩ } [
      .mk { kind := .typeIdentifier, field := some .name, span := ⟨20, 21⟩ } []]]

/-- The tree of the text `template<long>class S;`. -/
def longTemplateTree : ParseTree :=
  { root := .mk { kind := .other "translation_unit", span := ⟨0, 22⟩ } [longTemplate]
    hasError := false }

/-- The tree of the same text with `(` after it. -/
def unclosedTree : ParseTree :=
  { root := .mk { kind := .other "translation_unit", span := ⟨0, 23⟩ }
      [longTemplate, .mk { kind := .other "ERROR", span := ⟨22, 23⟩ } []]
    hasError := true }

def threeFiles : Workspace where
  tree := ⟨[
    (["p".toList, "b.h".toList], .file (.text "template<long>class S;(" unclosedTree)),
    (["p".toList, "c.h".toList], .file (.binary [255])),
    (["p".toList, "a.h".toList], .file (.text "template<long>class S;" longTemplateTree))]⟩
  cwd := ⟨"/p"⟩

/-- A linter with the rule `no-long`. -/
def longLinter (strict : Bool) : Linter where
  root := ⟨"/p"⟩
  base := ⟨"/p"⟩
  rules := [.noLong .warning]
  exclusions := []
  config := {}
  strict

/-- The three files as they are walked. -/
def threeWalked : List SourceFile := [
  { path := ⟨"/p/b.h"⟩, content := .text "template<long>class S;(" unclosedTree },
  { path := ⟨"/p/c.h"⟩, content := .binary [255] },
  { path := ⟨"/p/a.h"⟩, content := .text "template<long>class S;" longTemplateTree }]

theorem discover_threeFiles (strict : Bool) :
    (longLinter strict).discover threeFiles = .ok (Linter.sortFiles threeWalked) := by
  cases strict with
  | false =>
    exact (longLinter false).discover_of_directory threeFiles ["p".toList] rfl rfl
      (by decide +kernel)
  | true =>
    exact (longLinter true).discover_of_directory threeFiles ["p".toList] rfl rfl
      (by decide +kernel)

-- Both texts have a finding. A strict run ends at the second one.
theorem threeFiles_checksInOrder :
    (∃ ordered : List SourceFile, ordered.Perm threeWalked ∧
      (longLinter false).ChecksInOrder threeFiles ordered) ∧
    (∃ ordered : List SourceFile, ordered.Perm threeWalked ∧
      (longLinter true).ChecksInOrder threeFiles ordered) ∧
    ((longLinter false).violations ⟨"/p/a.h"⟩ "template<long>class S;"
      (.ofTree (.ofString "template<long>class S;") longTemplateTree.root)).length = 1 ∧
    ((longLinter false).violations ⟨"/p/b.h"⟩ "template<long>class S;("
      (.ofTree (.ofString "template<long>class S;(") unclosedTree.root)).length = 1 := by
  refine ⟨?_, ?_, by decide +kernel, by decide +kernel⟩
  · exact (longLinter false).run_checksInOrder threeFiles (discover_threeFiles false)
      (List.mergeSort_perm _ _) (by decide +kernel) (by decide +kernel)
  · exact (longLinter true).run_checksInOrder threeFiles (discover_threeFiles true)
      (List.mergeSort_perm _ _) (by decide +kernel) (by decide +kernel)

end WidthCheck
