import WidthCheck.Linter.Check
import WidthCheck.Proofs.Suppression.Allowance
import WidthCheck.Proofs.Text.Lines
import WidthCheck.Rule.NoLong

/-!
# The lines that decide

Whether a rule is allowed at a line is up to that line and the line before it, and to nothing else
in the text. The line before is asked first, so that a directive there decides even where the line
itself has one: if the first of the two gives no reason, the reason of the second is not seen.
-/

namespace WidthCheck

theorem Reach.covers_self (reach : Reach) (l l' : Nat) : reach.covers l l = reach.covers l' l' := by
  cases reach <;> simp [Reach.covers]

theorem Reach.covers_before (reach : Reach) {l l' : Nat} (hl : 1 ≤ l) (hl' : 1 ≤ l') :
    reach.covers (l - 1) l = reach.covers (l' - 1) l' := by
  have hne : l - 1 ≠ l := by omega
  have hne' : l' - 1 ≠ l' := by omega
  cases reach <;> simp [Reach.covers, Nat.sub_add_cancel hl, Nat.sub_add_cancel hl', hne, hne']

namespace Allowance

open Directive Text

variable {content : String} {name code : String} {k : Nat} {d : Directive}

/-! ## Reasons -/

/-- The directive on a line allows a rule at the target. -/
def Allows (content name code : String) (target written : Nat) (d : Directive) : Prop :=
  directive? content written = some d ∧ target ∈ d.reach.lines written ∧
    d.IsFor name.toList code.toList

instance (content name code : String) (target written : Nat) (d : Directive) :
    Decidable (Allows content name code target written d) :=
  inferInstanceAs (Decidable (_ ∧ _ ∧ _))

theorem directiveFor_eq_some_iff {target written : Nat} :
    directiveFor (Text.lines content.toList) name.toList code.toList target written = some d ↔
      Allows content name code target written d := by
  rw [directiveFor_eq_filter, Option.filter_eq_some_iff, Bool.and_eq_true,
    Reach.covers_iff_mem_lines, appliesTo_iff_isFor]
  rfl

theorem check_of_allows_before (hk : k ≠ 0) (h : Allows content name code k (k - 1) d) :
    check content k name code = allowed (d.reason.map String.ofList) := by
  rw [check, if_neg hk]
  simp only [directiveFor_eq_some_iff.mpr h, Option.some_or]

theorem check_of_allows_own (hk : k ≠ 0)
    (hbefore : ∀ other, ¬Allows content name code k (k - 1) other) (h : Allows content name code k k d) :
    check content k name code = allowed (d.reason.map String.ofList) := by
  have hnone :
      directiveFor (Text.lines content.toList) name.toList code.toList k (k - 1) = none := by
    rw [Option.eq_none_iff_forall_ne_some]
    intro other hother
    exact hbefore other (directiveFor_eq_some_iff.mp hother)
  rw [check, if_neg hk]
  simp only [hnone, directiveFor_eq_some_iff.mpr h, Option.none_or]

/-- The line before has a directive for a line that gives no reason. -/
def IsHidden (content name code : String) (k : Nat) : Prop :=
  ∃ other, Allows content name code k (k - 1) other ∧ other.reason = none

theorem check_of_isHidden (hk : k ≠ 0) (h : IsHidden content name code k) :
    check content k name code = allowed none := by
  obtain ⟨other, hother, hreason⟩ := h
  rw [check_of_allows_before hk hother, hreason]
  rfl

theorem check_of_not_isHidden (hk : k ≠ 0) (h : Allows content name code k k d)
    (hreason : d.reason.isSome = true) (hopen : ¬IsHidden content name code k) :
    ∃ reason, check content k name code = allowed (some reason) := by
  by_cases hbefore : ∃ other, Allows content name code k (k - 1) other
  · obtain ⟨other, hother⟩ := hbefore
    have hother_reason : other.reason ≠ none := fun hnone => hopen ⟨other, hother, hnone⟩
    obtain ⟨reason, hsome⟩ := Option.ne_none_iff_exists'.mp hother_reason
    exact ⟨String.ofList reason, by rw [check_of_allows_before hk hother, hsome]; rfl⟩
  · obtain ⟨reason, hsome⟩ := Option.isSome_iff_exists.mp hreason
    rw [not_exists] at hbefore
    exact ⟨String.ofList reason, by rw [check_of_allows_own hk hbefore h, hsome]; rfl⟩

/-- A reason on the line of a finding counts unless the line before has a directive for the same
line and rule that gives none. Then the line is taken to have no reason, which is reported wherever
one is needed; in all other cases the finding is dropped. -/
theorem own_reason_counts_iff (rule : Rule) (severity : Severity) (file : Path)
    (position : Position) (template : String) (args : List DiagArg)
    (hd : directive? content position.line = some d)
    (hcovers : position.line ∈ d.reach.lines position.line)
    (hfor : d.IsFor rule.name.toList rule.code.toList) (hreason : d.reason.isSome = true) :
    ((∃ reason, check content position.line rule.name rule.code = allowed (some reason)) ↔
      ¬IsHidden content rule.name rule.code position.line) ∧
    (IsHidden content rule.name rule.code position.line →
      check content position.line rule.name rule.code = allowed none) ∧
    (IsHidden content rule.name rule.code position.line ∧
        (rule.requiresReason = true ∨ severity = .error) →
      Linter.violation? rule severity file content ⟨some position, template, args⟩ =
        some (Linter.missingReason rule
          ⟨file, position.line, position.column, position.offset, position.length⟩)) ∧
    (¬(IsHidden content rule.name rule.code position.line ∧
        (rule.requiresReason = true ∨ severity = .error)) →
      Linter.violation? rule severity file content ⟨some position, template, args⟩ = none) := by
  have hline : position.line ≠ 0 := by
    intro hzero
    rw [hzero] at hd
    cases hd
  have hhidden (h : IsHidden content rule.name rule.code position.line) :
      check content position.line rule.name rule.code = allowed none := check_of_isHidden hline h
  have hopen (h : ¬IsHidden content rule.name rule.code position.line) :
      ∃ reason, check content position.line rule.name rule.code = allowed (some reason) :=
    check_of_not_isHidden hline ⟨hd, hcovers, hfor⟩ hreason h
  refine ⟨⟨?_, hopen⟩, hhidden, ?_, ?_⟩
  · rintro ⟨reason, hcheck⟩ h
    rw [hhidden h] at hcheck
    cases hcheck
  · rintro ⟨h, hneeded⟩
    rw [Linter.violation?, Option.bind_some, hhidden h, Linter.judge,
      if_pos (by simpa using hneeded)]
  · intro h
    rw [Linter.violation?, Option.bind_some]
    by_cases hh : IsHidden content rule.name rule.code position.line
    · rw [hhidden hh, Linter.judge, if_neg (by simpa [hh] using h)]
    · obtain ⟨reason, hcheck⟩ := hopen hh
      rw [hcheck, Linter.judge]

/-- Each of two lines has a directive of its own, and the first gives no reason. -/
def neighbourText : String :=
  "long a; // width-lint: allow(no-long)\nlong b; // width-lint: allow(no-long) reason=\"POSIX\""

theorem check_neighbourText :
    directive? neighbourText 2 = some ⟨["no-long".toList], some "POSIX".toList, .sameAndNextLine⟩ ∧
      check neighbourText 2 "no-long" "WL001" = allowed none ∧
      Linter.violation? (.noLong .error) .error ⟨"a.cpp"⟩ neighbourText
          ⟨some ⟨2, 6, 43, 1⟩, "", []⟩ =
        some (Linter.missingReason (.noLong .error) ⟨⟨"a.cpp"⟩, 2, 6, 43, 1⟩) := by
  have hown : directive? neighbourText 2 =
      some ⟨["no-long".toList], some "POSIX".toList, .sameAndNextLine⟩ := by decide
  have hbefore : Allows neighbourText "no-long" "WL001" 2 1
      ⟨["no-long".toList], none, .sameAndNextLine⟩ := by decide
  have hhidden : IsHidden neighbourText "no-long" "WL001" 2 := ⟨_, hbefore, rfl⟩
  have hcounts := own_reason_counts_iff (.noLong .error) .error ⟨"a.cpp"⟩ ⟨2, 6, 43, 1⟩ "" [] hown
    (by decide) (by decide) rfl
  exact ⟨hown, hcounts.2.1 hhidden, hcounts.2.2.1 ⟨hhidden, .inl rfl⟩⟩

/-! ## Texts with the same two lines -/

theorem check_congr {content' : String} {l l' : Nat} (hl : 1 ≤ l) (hl' : 1 ≤ l')
    (hown : line? content l = line? content' l')
    (hbefore : line? content (l - 1) = line? content' (l' - 1)) :
    check content l name code = check content' l' name code := by
  have hfirst : directiveFor (Text.lines content.toList) name.toList code.toList l (l - 1) =
      directiveFor (Text.lines content'.toList) name.toList code.toList l' (l' - 1) := by
    rw [directiveFor_eq_filter, directiveFor_eq_filter, directive?, directive?, hbefore]
    simp only [Reach.covers_before _ hl hl']
  have hsecond : directiveFor (Text.lines content.toList) name.toList code.toList l l =
      directiveFor (Text.lines content'.toList) name.toList code.toList l' l' := by
    rw [directiveFor_eq_filter, directiveFor_eq_filter, directive?, directive?, hown]
    simp only [Reach.covers_self _ l l']
  rw [check, check, if_neg (by omega), if_neg (by omega)]
  simp only [hfirst, hsecond]

variable {front block back : List Char} {offset : Nat}

theorem line?_of_le (h : IsClosed front) (hk : k ≤ front.count '\n') (cs : List Char) :
    line? (String.ofList (front ++ cs)) k = line? (String.ofList front) k := by
  cases k with
  | zero => rfl
  | succ k =>
    rw [line?, line?, String.toList_ofList, String.toList_ofList, lines_append h,
      List.getElem?_append_left (by rw [length_lines h]; omega)]

theorem line?_add (h : IsClosed front) (hk : 1 ≤ k) (cs : List Char) :
    line? (String.ofList (front ++ cs)) (front.count '\n' + k) = line? (String.ofList cs) k := by
  obtain ⟨k, rfl⟩ := Nat.exists_eq_add_of_le' hk
  rw [← Nat.add_assoc, line?, line?, String.toList_ofList, String.toList_ofList, lines_append h,
    List.getElem?_append_right (by rw [length_lines h]; omega), length_lines h]
  congr 1
  omega

theorem check_insert_of_le (hfront : IsClosed front) (hk : k ≤ front.count '\n') :
    check (String.ofList (front ++ (block ++ back))) k name code =
      check (String.ofList (front ++ back)) k name code := by
  cases k with
  | zero => rfl
  | succ k =>
    apply check_congr (by omega) (by omega)
    · rw [line?_of_le hfront hk, line?_of_le hfront hk]
    · rw [line?_of_le hfront (by omega), line?_of_le hfront (by omega)]

theorem check_insert_add (hfront : IsClosed front) (hblock : IsClosed block) (hk : 2 ≤ k) :
    check (String.ofList (front ++ (block ++ back))) (front.count '\n' + (block.count '\n' + k))
        name code =
      check (String.ofList (front ++ back)) (front.count '\n' + k) name code := by
  have hline {j : Nat} (hj : 1 ≤ j) :
      line? (String.ofList (front ++ (block ++ back))) (front.count '\n' + (block.count '\n' + j)) =
        line? (String.ofList (front ++ back)) (front.count '\n' + j) := by
    rw [line?_add hfront (by omega), line?_add hblock hj, line?_add hfront hj]
  obtain ⟨k, rfl⟩ := Nat.exists_eq_add_of_le' hk
  apply check_congr (by omega) (by omega)
  · exact hline (by omega)
  · exact hline (j := k + 1) (by omega)

/-! ## Findings at offsets -/

/-- Whether a rule is allowed at the line of an offset. -/
def checkAt (content : String) (offset : Nat) (name code : String) : Allowance :=
  check content ((Source.ofString content).lineAt offset) name code

theorem line?_lineAt {l : PhysicalLine content.toList} (h : l.Holds offset) :
    line? content ((Source.ofString content).lineAt offset) = some l.text := by
  rw [h.lineAt_eq, line?, l.getElem?_lines]

theorem line?_end (h : IsClosed content.toList) :
    line? content ((Source.ofString content).lineAt content.utf8ByteSize) = none := by
  rw [lineAt_end, line?, List.getElem?_eq_none_iff, length_lines h]

theorem checkAt_insert_of_lt (hfront : IsClosed front) (hoffset : offset < (utf8 front).length) :
    checkAt (String.ofList (front ++ (block ++ back))) offset name code =
      checkAt (String.ofList (front ++ back)) offset name code := by
  have hline := lineAt_le hfront hoffset
  rw [checkAt, checkAt, lineAt_of_le hoffset.le, lineAt_of_le hoffset.le]
  exact check_insert_of_le hfront hline

theorem checkAt_insert_add (hfront : IsClosed front) (hblock : IsClosed block)
    (hline : front.count '\n' + 2 ≤
      (Source.ofString (String.ofList (front ++ back))).lineAt offset) :
    checkAt (String.ofList (front ++ (block ++ back))) (offset + (utf8 block).length) name code =
      checkAt (String.ofList (front ++ back)) offset name code := by
  have hoffset : (utf8 front).length ≤ offset := by
    by_contra hlt
    have hle := lineAt_le hfront (Nat.lt_of_not_le hlt)
    rw [lineAt_of_le (Nat.le_of_not_le hlt)] at hline
    omega
  obtain ⟨more, rfl⟩ := Nat.exists_eq_add_of_le hoffset
  rw [lineAt_add] at hline
  rw [checkAt, checkAt, show (utf8 front).length + more + (utf8 block).length =
    (utf8 front).length + ((utf8 block).length + more) by omega, lineAt_add, lineAt_add, lineAt_add]
  exact check_insert_add hfront hblock (by omega)

/-- A finding is allowed or not by its own line and the line before it. The number that an offset
is given is that of the line it lies in, and only the end of a closed text lies in no line. Two
texts that agree in the two lines of a finding agree about it, wherever these lines stand. So lines
put in or taken out elsewhere change nothing, neither for the findings before them nor, but for the
line next to them, for those behind them. -/
theorem allowance_local :
    (∀ (content : String) (offset : Nat), offset ≤ content.utf8ByteSize →
      (¬(offset = content.utf8ByteSize ∧ IsClosed content.toList) →
        ∃ l : PhysicalLine content.toList, l.Holds offset) ∧
      (∀ l : PhysicalLine content.toList, l.Holds offset →
        line? content ((Source.ofString content).lineAt offset) = some l.text) ∧
      (offset = content.utf8ByteSize ∧ IsClosed content.toList →
        line? content ((Source.ofString content).lineAt offset) = none)) ∧
    (∀ (content content' : String) (l l' : Nat), 1 ≤ l → 1 ≤ l' →
      line? content l = line? content' l' → line? content (l - 1) = line? content' (l' - 1) →
      ∀ name code, check content l name code = check content' l' name code) ∧
    ∀ front block back : List Char, IsClosed front → IsClosed block → ∀ offset name code,
      (offset < (utf8 front).length →
        checkAt (String.ofList (front ++ (block ++ back))) offset name code =
          checkAt (String.ofList (front ++ back)) offset name code) ∧
      (front.count '\n' + 2 ≤ (Source.ofString (String.ofList (front ++ back))).lineAt offset →
        checkAt (String.ofList (front ++ (block ++ back))) (offset + (utf8 block).length) name
            code =
          checkAt (String.ofList (front ++ back)) offset name code) := by
  refine ⟨?_, ?_, ?_⟩
  · intro content offset hoffset
    refine ⟨fun h => ?_, fun l hl => line?_lineAt hl, ?_⟩
    · rw [← length_utf8] at h hoffset
      apply PhysicalLine.exists_holds _ hoffset
      by_cases hend : offset = (utf8 content.toList).length
      · exact .inr fun hclosed => h ⟨hend, hclosed⟩
      · exact .inl (by omega)
    · rintro ⟨rfl, hclosed⟩
      exact line?_end hclosed
  · intro content content' l l' hl hl' hown hbefore name code
    exact check_congr hl hl' hown hbefore
  · intro front block back hfront hblock offset name code
    exact ⟨checkAt_insert_of_lt hfront, checkAt_insert_add hfront hblock⟩

/-- A text with carriage returns, a character of two bytes and no line feed at its end. -/
def returnText : String := "// é\r\nlong a; // NOLINT\r\nlong b;"

def returnLine : PhysicalLine returnText.toList where
  before := "// é\r\n".toList
  text := "long a; // NOLINT".toList
  ending := "\r\n".toList
  after := "long b;".toList
  eq_append := by decide
  isClosed_before := by decide
  not_mem_text := by decide
  ends := .inl rfl

theorem returnText_local :
    returnLine.Holds 12 ∧
      line? returnText ((Source.ofString returnText).lineAt 12) = some "long a; // NOLINT".toList ∧
      check returnText 2 "no-long" "WL001" =
        check "// é\nlong a; // NOLINT" 2 "no-long" "WL001" ∧
      checkAt (String.ofList ([] ++ ("int x;\n".toList ++ returnText.toList)))
          (12 + (utf8 "int x;\n".toList).length) "no-long" "WL001" =
        checkAt (String.ofList ([] ++ returnText.toList)) 12 "no-long" "WL001" := by
  have hholds : returnLine.Holds 12 := by decide
  have hline : [].count '\n' + 2 ≤
      (Source.ofString (String.ofList ([] ++ returnText.toList))).lineAt 12 := by
    rw [List.nil_append, String.ofList_toList, hholds.lineAt_eq]
    decide
  have hcongr := allowance_local.2.1 returnText "// é\nlong a; // NOLINT" 2 2 (by decide)
    (by decide) (by decide) (by decide)
  have hinsert := allowance_local.2.2 [] "int x;\n".toList returnText.toList (.inl rfl)
    (by decide) 12
  exact ⟨hholds, (allowance_local.1 returnText 12 (by decide)).2.1 returnLine hholds,
    hcongr "no-long" "WL001", (hinsert "no-long" "WL001").2 hline⟩

end Allowance

end WidthCheck
