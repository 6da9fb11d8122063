import WidthCheck.Proofs.Suppression.Directive

/-!
# Allowed lines

A directive allows the rules of its list at the lines of its reach, and no others, as long as no
other directive is for the same line. A list with no entries is the exception: it is read as if
there were none, and allows every rule.
-/

namespace WidthCheck

/-- The lines that a directive written on one of them is for. -/
def Reach.lines (written : Nat) : Reach → List Nat
  | .sameLine => [written]
  | .nextLine => [written + 1]
  | .sameAndNextLine => [written, written + 1]

theorem Reach.covers_iff_mem_lines (reach : Reach) (written target : Nat) :
    reach.covers written target = true ↔ target ∈ reach.lines written := by
  cases reach <;> simp [covers, lines, @eq_comm _ target]

theorem Reach.eq_or_eq_of_mem_lines {reach : Reach} {written target : Nat}
    (h : target ∈ reach.lines written) : written = target ∨ written + 1 = target := by
  cases reach <;> simp only [lines, List.mem_cons, List.not_mem_nil, or_false] at h <;> omega

namespace Directive

/-- An entry of a list is for the rule that has it as its name or code, or for every rule. -/
def IsEntryFor (name code entry : List Char) : Prop :=
  entry = name ∨ entry = code ∨ entry = "*".toList ∨ entry = "all".toList

instance (name code entry : List Char) : Decidable (IsEntryFor name code entry) :=
  inferInstanceAs (Decidable (_ ∨ _ ∨ _ ∨ _))

/-- The rules a directive is for. -/
def IsFor (d : Directive) (name code : List Char) : Prop :=
  d.rules = [] ∨ ∃ id ∈ d.rules, IsEntryFor name code id

instance (d : Directive) (name code : List Char) : Decidable (d.IsFor name code) :=
  inferInstanceAs (Decidable (_ ∨ _))

theorem appliesTo_iff_isFor (d : Directive) (name code : List Char) :
    d.appliesTo name code = true ↔ d.IsFor name code := by
  simp [appliesTo, IsFor, IsEntryFor, and_or_left, exists_or, or_assoc]

-- The empty entries of a list are not among the rules it is read as.
theorem isFor_splitRules_iff (list name code : List Char) (reason : Option (List Char))
    (reach : Reach) :
    IsFor ⟨splitRules list, reason, reach⟩ name code ↔
      (∀ entry ∈ (list.splitOn ',').map Text.trim, entry = []) ∨
        ∃ entry ∈ (list.splitOn ',').map Text.trim, entry ≠ [] ∧ IsEntryFor name code entry := by
  rw [IsFor, splitRules, Text.splitWhere_eq_splitOnP, ← List.splitOn_eq_splitOnP]
  simp [and_assoc]

-- Read this way, a list stands for its entries only if one of them is not empty.
theorem stands_for_entries_iff {name code : List Char} (hname : name ≠ []) (hcode : code ≠ [])
    (entries : List (List Char)) :
    (((∀ entry ∈ entries, entry = []) ∨
        ∃ entry ∈ entries, entry ≠ [] ∧ IsEntryFor name code entry) ↔
      ∃ entry ∈ entries, IsEntryFor name code entry) ↔ ∃ entry ∈ entries, entry ≠ [] := by
  have hnil {entry : List Char} (h : IsEntryFor name code entry) : entry ≠ [] := by
    rcases h with rfl | rfl | rfl | rfl
    · exact hname
    · exact hcode
    · decide
    · decide
  constructor
  · intro h
    by_contra hempty
    push Not at hempty
    obtain ⟨entry, hentry, hfor⟩ := h.mp (.inl hempty)
    exact hnil hfor (hempty entry hentry)
  · rintro ⟨entry, hentry, hne⟩
    constructor
    · rintro (hempty | ⟨other, hother, _, hfor⟩)
      · exact absurd (hempty entry hentry) hne
      · exact ⟨other, hother, hfor⟩
    · rintro ⟨other, hother, hfor⟩
      exact .inr ⟨other, hother, hnil hfor, hfor⟩

end Directive

namespace Allowance

open Directive

/-- The line of a text with a number. The first line has the number one. -/
def line? (content : String) : Nat → Option (List Char)
  | 0 => none
  | k + 1 => (Text.lines content.toList)[k]?

/-- The directive on the line with a number. -/
def directive? (content : String) (k : Nat) : Option Directive := (line? content k).bind parse

/-- No line but one carries a directive for the target. -/
def IsAlone (content : String) (k target : Nat) : Prop :=
  ∀ j d, j ≠ k → directive? content j = some d → target ∉ d.reach.lines j

variable {content : String} {k target : Nat} {d : Directive}

-- A line is reached from itself and from the line before it only.
theorem isAlone_iff_neighbours : IsAlone content k target ↔
    ∀ j ∈ [target - 1, target], j ≠ k → ∀ d ∈ directive? content j, target ∉ d.reach.lines j := by
  constructor
  · intro h j _ hj d hd
    exact h j d hj hd
  · intro h j d hj hd hmem
    refine h j ?_ hj d hd hmem
    rcases Reach.eq_or_eq_of_mem_lines hmem with rfl | rfl <;> simp

instance (content : String) (k target : Nat) : Decidable (IsAlone content k target) :=
  decidable_of_iff _ isAlone_iff_neighbours.symm

theorem directiveFor_eq_filter (content : String) (name code : List Char) (target j : Nat) :
    directiveFor (Text.lines content.toList) name code target j =
      (directive? content j).filter fun d => d.reach.covers j target && d.appliesTo name code := by
  cases j with
  | zero => rfl
  | succ j =>
    show (Text.lines content.toList)[j]?.bind _ =
      ((Text.lines content.toList)[j]?.bind parse).filter _
    cases (Text.lines content.toList)[j]? with
    | none => rfl
    | some line => cases hparse : parse line <;> simp [Option.filter, hparse]

theorem directiveFor_eq_none {j : Nat}
    (h : ∀ d, directive? content j = some d → target ∉ d.reach.lines j) (name code : List Char) :
    directiveFor (Text.lines content.toList) name code target j = none := by
  rw [directiveFor_eq_filter, Option.filter_eq_none_iff]
  intro d hd happlies
  rw [Bool.and_eq_true, Reach.covers_iff_mem_lines] at happlies
  exact h d hd happlies.1

theorem or_directiveFor_of_isAlone (halone : IsAlone content k target) (htarget : target ≠ 0)
    (name code : List Char) :
    (directiveFor (Text.lines content.toList) name code target (target - 1)).or
        (directiveFor (Text.lines content.toList) name code target target) =
      directiveFor (Text.lines content.toList) name code target k := by
  have hother (j : Nat) (hj : j ≠ k) :
      directiveFor (Text.lines content.toList) name code target j = none :=
    directiveFor_eq_none (fun d hd => halone j d hj hd) name code
  by_cases hsame : k = target
  · rw [hother (target - 1) (by omega), Option.none_or, hsame]
  rw [hother target (Ne.symm hsame), Option.or_none]
  by_cases hbefore : k + 1 = target
  · rw [show target - 1 = k by omega]
  -- Neither of the two lines asked is the one that may speak, and that one is out of reach.
  rw [hother (target - 1) (by omega), directiveFor_eq_none]
  intro d _ hmem
  exact (Reach.eq_or_eq_of_mem_lines hmem).elim hsame hbefore

/-- Where only one line can speak about the target, its directive decides. -/
theorem check_of_isAlone (hd : directive? content k = some d) (halone : IsAlone content k target)
    (name code : String) :
    check content target name code =
      if target ∈ d.reach.lines k ∧ d.IsFor name.toList code.toList then
        allowed (d.reason.map String.ofList)
      else denied := by
  have hfound : directiveFor (Text.lines content.toList) name.toList code.toList target k =
      if target ∈ d.reach.lines k ∧ d.IsFor name.toList code.toList then some d else none := by
    rw [directiveFor_eq_filter, hd]
    simp only [Option.filter, Bool.and_eq_true, Reach.covers_iff_mem_lines, appliesTo_iff_isFor]
  by_cases htarget : target = 0
  · have hk : k ≠ 0 := by
      rintro rfl
      cases hd
    have hout : target ∉ d.reach.lines k := fun hmem => by
      have := Reach.eq_or_eq_of_mem_lines hmem
      omega
    rw [check, if_pos htarget, if_neg fun h => hout h.1]
  · rw [check, if_neg htarget]
    simp only [or_directiveFor_of_isAlone halone htarget, hfound]
    by_cases h : target ∈ d.reach.lines k ∧ d.IsFor name.toList code.toList
    · rw [if_pos h, if_pos h]
    · rw [if_neg h, if_neg h]

/-- A directive in one of its written forms allows the rules it is for, with the reason that is
written, at the lines of its reach. It allows no other rule, and nothing at another line. -/
theorem check_of_spells {front text : List Char} (hline : line? content k = some (front ++ text))
    (hfront : HasNoMark front) (hspells : Spells d text) (halone : IsAlone content k target)
    (name code : String) :
    (target ∈ d.reach.lines k ∧ d.IsFor name.toList code.toList →
      check content target name code = allowed (d.reason.map String.ofList)) ∧
    (¬(target ∈ d.reach.lines k ∧ d.IsFor name.toList code.toList) →
      check content target name code = denied) := by
  have hd : directive? content k = some d := by
    rw [directive?, hline, Option.bind_some, parse_of_spells hfront hspells]
  rw [check_of_isAlone hd halone]
  exact ⟨fun h => if_pos h, fun h => if_neg h⟩

/-- The code before the comment ends in a slash, and the reason has a parenthesis in it. -/
def signatureText : String :=
  "tick = a /// width-lint: allow(no-long, WL007) reason=\"see (2)\"\nlong t;"

theorem check_signatureText :
    check signatureText 2 "no-long" "WL001" = allowed (some "see (2)") ∧
      check signatureText 2 "no-short" "WL002" = denied := by
  have hrest : ListsRules ["WL007".toList] (" ".toList ++ ("WL007".toList ++ [])) :=
    .one ⟨by decide, by decide, by decide, by decide⟩ (by decide) (by decide)
  have hlist : ListsRules ["no-long".toList, "WL007".toList]
      ([] ++ ("no-long".toList ++ []) ++ ',' :: (" ".toList ++ ("WL007".toList ++ []))) :=
    .more ⟨by decide, by decide, by decide, by decide⟩ (by decide) (by decide) hrest
  have hreason : ∀ s ∈ some "see (2)".toList, '"' ∉ s := by decide
  have hspells := Spells.allow hlist hreason
  have hfront : HasNoMark "tick = a /".toList := by decide
  have halone : IsAlone signatureText 1 2 := by decide
  have hcheck := check_of_spells (by decide) hfront hspells halone
  exact ⟨(hcheck "no-long" "WL001").1 (by decide), (hcheck "no-short" "WL002").2 (by decide)⟩

-- What stands between the parentheses need not be a written list of rules.
theorem isAllowed_iff_isFor_splitRules {front list : List Char} (isNext : Bool)
    (hline : line? content k =
      some (front ++ ("// ".toList ++ (nolint isNext ++ '(' :: (list ++ [')'])))))
    (hfront : HasNoMark front) (hlist : ')' ∉ list)
    (htarget : target ∈ (nolintReach isNext).lines k) (halone : IsAlone content k target)
    (name code : String) :
    (check content target name code).isAllowed = true ↔
      IsFor ⟨splitRules list, none, nolintReach isNext⟩ name.toList code.toList := by
  have hreason : ∀ s ∈ (none : Option (List Char)), IsRemark s := by simp
  have hd : directive? content k = some ⟨splitRules list, none, nolintReach isNext⟩ := by
    rw [directive?, hline]
    exact parse_listed hfront isNext hlist hreason
  rw [check_of_isAlone hd halone]
  by_cases hfor : IsFor ⟨splitRules list, none, nolintReach isNext⟩ name.toList code.toList
  · rw [if_pos ⟨htarget, hfor⟩]
    exact iff_of_true rfl hfor
  · rw [if_neg fun h => hfor h.2]
    exact iff_of_false Bool.false_ne_true hfor

/-- A list allows the rules of its entries, the empty ones aside, and every rule if it has no other
entries. So it limits a directive to the rules it names just when one of its entries is not
empty. -/
theorem isAllowed_listed_iff {front list : List Char} (isNext : Bool)
    (hline : line? content k =
      some (front ++ ("// ".toList ++ (nolint isNext ++ '(' :: (list ++ [')'])))))
    (hfront : HasNoMark front) (hlist : ')' ∉ list)
    (htarget : target ∈ (nolintReach isNext).lines k) (halone : IsAlone content k target)
    (name code : String) :
    ((check content target name code).isAllowed = true ↔
      (∀ entry ∈ (list.splitOn ',').map Text.trim, entry = []) ∨
        ∃ entry ∈ (list.splitOn ',').map Text.trim,
          entry ≠ [] ∧ IsEntryFor name.toList code.toList entry) ∧
    (name ≠ "" → code ≠ "" →
      (((check content target name code).isAllowed = true ↔
        ∃ entry ∈ (list.splitOn ',').map Text.trim, IsEntryFor name.toList code.toList entry) ↔
      ∃ entry ∈ (list.splitOn ',').map Text.trim, entry ≠ [])) := by
  have hallowed := isAllowed_iff_isFor_splitRules isNext hline hfront hlist htarget halone name code
  rw [isFor_splitRules_iff] at hallowed
  refine ⟨hallowed, fun hname hcode => ?_⟩
  rw [hallowed]
  exact stands_for_entries_iff (by simpa using hname) (by simpa using hcode) _

/-- The parentheses are there, but no rule stands between them. -/
theorem isAllowed_emptyList :
    (check "long a; // NOLINT()" 1 "no-long" "WL001").isAllowed = true ∧
      ¬((check "long a; // NOLINT()" 1 "no-long" "WL001").isAllowed = true ↔
        ∃ entry ∈ ([].splitOn ',').map Text.trim,
          IsEntryFor "no-long".toList "WL001".toList entry) := by
  have hline : line? "long a; // NOLINT()" 1 =
      some ("long a; ".toList ++ ("// ".toList ++ (nolint false ++ '(' :: ([] ++ [')'])))) := by
    decide
  have hallowed := isAllowed_listed_iff false hline (by decide) (by decide)
    (show 1 ∈ Reach.lines 1 (nolintReach false) by decide) (by decide) "no-long" "WL001"
  refine ⟨hallowed.1.mpr (.inl (by decide)), fun h => ?_⟩
  exact absurd ((hallowed.2 (by decide) (by decide)).mp h) (by decide)

end Allowance

end WidthCheck
