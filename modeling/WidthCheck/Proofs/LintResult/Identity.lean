import WidthCheck.Proofs.LintResult

/-!
# Each finding once, in order

Findings that agree in file, line, column, code and message are one finding, whatever else they
say. Files are compared by components, so `a//b.cpp` and `a/b.cpp` are one file. Sorting keeps the
order of the input among findings that are the same and puts them side by side; comparing neighbours
is then enough to keep the first of each.
-/

namespace WidthCheck

namespace Violation

/-- What makes a finding the one it is. -/
def identity (v : Violation) : List Component × Nat × Nat × String × String :=
  (v.location.file.components, v.location.line, v.location.column, v.code, v.message)

/-- The order of a report: by file, then by line, column, code and message. -/
def Before (a b : Violation) : Prop :=
  a.location.file.compare b.location.file = .lt ∨
    a.location.file.components = b.location.file.components ∧
      (a.location.line < b.location.line ∨
        a.location.line = b.location.line ∧
          (a.location.column < b.location.column ∨
            a.location.column = b.location.column ∧
              (a.code < b.code ∨ a.code = b.code ∧ a.message < b.message)))

theorem compare_eq_eq_iff {a b : Violation} : a.compare b = .eq ↔ a.identity = b.identity := by
  simp only [compare, compareLex_eq_eq, compareOn, Path.compare_eq_eq_iff,
    Std.LawfulEqCmp.compare_eq_iff_eq, identity, Prod.mk.injEq]

theorem compare_eq_lt_iff {a b : Violation} : a.compare b = .lt ↔ a.Before b := by
  have hstring : ∀ s t : String, Ord.compare s t = .lt ↔ s < t :=
    fun _ _ => compareOfLessAndEq_eq_lt
  simp only [compare, compareLex, Ordering.then_eq_lt, compareOn, Path.compare_eq_eq_iff,
    Nat.compare_eq_lt, hstring, Std.LawfulEqCmp.compare_eq_iff_eq, Before]

theorem Before.ne {a b : Violation} (h : a.Before b) : a ≠ b := by
  rintro rfl
  have hself : a.compare a = .eq := Std.ReflCmp.compare_self
  rw [compare_eq_lt_iff.mpr h] at hself
  cases hself

end Violation

namespace LintResult

open Violation (identity Before)

/-! ## Neighbours in a sorted list -/

theorem pairwise_dedupAfter {kept : Violation} {l : List Violation}
    (hsorted : (kept :: l).Pairwise fun a b => (a.compare b).isLE = true) :
    (kept :: dedupAfter kept l).Pairwise Before := by
  induction l generalizing kept with
  | nil => exact List.pairwise_singleton Before kept
  | cons v l ih =>
    obtain ⟨hkept, hrest⟩ := List.pairwise_cons.mp hsorted
    rw [dedupAfter]
    by_cases hsame : kept.compare v = .eq
    · rw [if_pos hsame]
      exact ih (hsorted.sublist ((List.sublist_cons_self v l).cons_cons kept))
    · rw [if_neg hsame]
      refine List.pairwise_cons.mpr ⟨fun w hw => ?_, ih hrest⟩
      have hkv : kept.compare v = .lt :=
        (Ordering.isLE_iff_eq_lt_or_eq_eq.mp (hkept v List.mem_cons_self)).resolve_right hsame
      rw [← Violation.compare_eq_lt_iff]
      rcases List.mem_cons.mp hw with rfl | hw
      · exact hkv
      · have hvw : (v.compare w).isLE = true :=
          (List.pairwise_cons.mp hrest).1 w (mem_of_mem_dedupAfter hw)
        exact Std.TransCmp.lt_of_lt_of_isLE hkv hvw

theorem pairwise_dedup {l : List Violation}
    (hsorted : l.Pairwise fun a b => (a.compare b).isLE = true) : (dedup l).Pairwise Before := by
  cases l with
  | nil => exact List.Pairwise.nil
  | cons v l => exact pairwise_dedupAfter hsorted

theorem dedupAfter_eq_self {kept : Violation} {l : List Violation}
    (h : (kept :: l).Pairwise Before) : dedupAfter kept l = l := by
  induction l generalizing kept with
  | nil => rfl
  | cons v l ih =>
    obtain ⟨hkept, hrest⟩ := List.pairwise_cons.mp h
    have hkv : kept.compare v = .lt :=
      Violation.compare_eq_lt_iff.mpr (hkept v List.mem_cons_self)
    rw [dedupAfter, hkv, if_neg (by decide), ih hrest]

theorem dedup_eq_self {l : List Violation} (h : l.Pairwise Before) : dedup l = l := by
  cases l with
  | nil => rfl
  | cons v l => rw [dedup, dedupAfter_eq_self h]

-- Of findings that are all the same, the first is left.
theorem dedup_of_same {l : List Violation} (h : ∀ a ∈ l, ∀ b ∈ l, a.compare b = .eq) :
    dedup l = l.head?.toList := by
  cases l with
  | nil => rfl
  | cons kept l =>
    have hkept : ∀ v ∈ l, kept.compare v = .eq :=
      fun v hv => h kept List.mem_cons_self v (List.mem_cons_of_mem kept hv)
    have hnone : dedupAfter kept l = [] := by
      clear h
      induction l with
      | nil => rfl
      | cons v l ih =>
        rw [dedupAfter, if_pos (hkept v List.mem_cons_self)]
        exact ih fun w hw => hkept w (List.mem_cons_of_mem v hw)
    rw [dedup, hnone]
    rfl

/-! ## What is kept -/

theorem pairwise_sortAndDedup (r : LintResult) : r.sortAndDedup.violations.Pairwise Before :=
  pairwise_dedup
    (List.pairwise_mergeSort (fun _ _ _ => Std.TransCmp.isLE_trans) isLE_total r.violations)

-- Restricted to one identity the input is sorted as it stands, and its first finding is left.
theorem filter_identity_sortAndDedup (r : LintResult) (v : Violation) :
    r.sortAndDedup.violations.filter (·.identity = v.identity) =
      (r.violations.find? (·.identity = v.identity)).toList := by
  have hsame : ∀ a ∈ r.violations.filter (·.identity = v.identity),
      ∀ b ∈ r.violations.filter (·.identity = v.identity), a.compare b = .eq := by
    intro a ha b hb
    have hav := of_decide_eq_true (List.mem_filter.mp ha).2
    have hbv := of_decide_eq_true (List.mem_filter.mp hb).2
    exact Violation.compare_eq_eq_iff.mpr (hav.trans hbv.symm)
  have hsorted : (r.violations.filter (·.identity = v.identity)).Pairwise
      fun a b => (a.compare b).isLE = true :=
    List.pairwise_of_forall_mem_list fun a ha b hb => by rw [hsame a ha b hb]; rfl
  have hfilter := filter_sortAndDedup (l := r.violations)
    (p := fun w => decide (w.identity = v.identity)) fun a _ b _ hab => by
      rw [Violation.compare_eq_eq_iff.mp hab]
  calc r.sortAndDedup.violations.filter (·.identity = v.identity)
      = dedup ((r.violations.filter (·.identity = v.identity)).mergeSort
          fun a b => (a.compare b).isLE) := hfilter
    _ = dedup (r.violations.filter (·.identity = v.identity)) := by
        rw [List.mergeSort_of_pairwise hsorted]
    _ = (r.violations.find? (·.identity = v.identity)).toList := by
        rw [dedup_of_same hsame, List.head?_filter]

theorem find?_of_mem_sortAndDedup {r : LintResult} {v : Violation}
    (hv : v ∈ r.sortAndDedup.violations) :
    r.violations.find? (·.identity = v.identity) = some v := by
  have hmem : v ∈ r.sortAndDedup.violations.filter (·.identity = v.identity) :=
    List.mem_filter.mpr ⟨hv, decide_eq_true rfl⟩
  rw [filter_identity_sortAndDedup] at hmem
  exact Option.mem_toList.mp hmem

theorem exists_mem_sortAndDedup {r : LintResult} {v : Violation} (hv : v ∈ r.violations) :
    ∃ w ∈ r.sortAndDedup.violations, w.identity = v.identity := by
  have hfound : (r.violations.find? (·.identity = v.identity)).isSome = true :=
    List.find?_isSome.mpr ⟨v, hv, decide_eq_true rfl⟩
  obtain ⟨w, hw⟩ := Option.isSome_iff_exists.mp hfound
  have hmem : w ∈ r.sortAndDedup.violations.filter (·.identity = v.identity) := by
    rw [filter_identity_sortAndDedup, hw]
    exact List.mem_singleton_self w
  exact ⟨w, (List.mem_filter.mp hmem).1, of_decide_eq_true (List.mem_filter.mp hmem).2⟩

theorem sortAndDedup_eq_self {r : LintResult} (h : r.violations.Pairwise Before) :
    r.sortAndDedup = r := by
  have hsorted : r.violations.Pairwise fun a b => (a.compare b).isLE = true :=
    h.imp fun hab => by rw [Violation.compare_eq_lt_iff.mpr hab]; rfl
  unfold sortAndDedup
  rw [List.mergeSort_of_pairwise hsorted, dedup_eq_self h]

/-! ## The order of the input -/

-- A list in order is determined by what it holds.
theorem eq_of_pairwise_before {l l' : List Violation} (h : l.Pairwise Before)
    (h' : l'.Pairwise Before) (hmem : ∀ v, v ∈ l ↔ v ∈ l') : l = l' := by
  have hperm : l.Perm l' :=
    (List.perm_ext_iff_of_nodup (h.imp Violation.Before.ne) (h'.imp Violation.Before.ne)).mpr hmem
  refine hperm.eq_of_pairwise (fun a b _ _ hab hba => ?_) h h'
  have hlt := Violation.compare_eq_lt_iff.mpr hab
  have hgt : b.compare a = .gt := Std.OrientedCmp.gt_of_lt hlt
  rw [Violation.compare_eq_lt_iff.mpr hba] at hgt
  cases hgt

-- If only equal findings are the same, none is lost.
theorem mem_sortAndDedup_iff {r : LintResult}
    (hsame : ∀ a ∈ r.violations, ∀ b ∈ r.violations, a.identity = b.identity → a = b)
    (v : Violation) : v ∈ r.sortAndDedup.violations ↔ v ∈ r.violations := by
  constructor
  · exact fun hv => List.mem_of_find?_eq_some (find?_of_mem_sortAndDedup hv)
  · intro hv
    obtain ⟨w, hw, hidentity⟩ := exists_mem_sortAndDedup hv
    have hwv : w = v :=
      hsame w (List.mem_of_find?_eq_some (find?_of_mem_sortAndDedup hw)) v hv hidentity
    exact hwv ▸ hw

/-- Sorting puts the findings in strict order and keeps, of those that are the same, the first of
the input. Every finding of the input is there in this sense, the number of files stays, and sorting
again changes nothing. If only equal findings are the same, the order of the input does not
matter. -/
theorem sortAndDedup_exact (r : LintResult) :
    r.sortAndDedup.violations.Pairwise Before ∧
    (∀ v ∈ r.sortAndDedup.violations,
      r.violations.find? (·.identity = v.identity) = some v) ∧
    (∀ v ∈ r.violations, ∃ w ∈ r.sortAndDedup.violations, w.identity = v.identity) ∧
    r.sortAndDedup.filesChecked = r.filesChecked ∧
    r.sortAndDedup.sortAndDedup = r.sortAndDedup ∧
    ∀ violations, violations.Perm r.violations →
      (∀ a ∈ r.violations, ∀ b ∈ r.violations, a.identity = b.identity → a = b) →
      { r with violations }.sortAndDedup = r.sortAndDedup := by
  refine ⟨pairwise_sortAndDedup r, fun v => find?_of_mem_sortAndDedup,
    fun v => exists_mem_sortAndDedup, rfl, sortAndDedup_eq_self (pairwise_sortAndDedup r), ?_⟩
  intro violations hperm hsame
  have hsamePerm : ∀ a ∈ violations, ∀ b ∈ violations, a.identity = b.identity → a = b :=
    fun a ha b hb => hsame a (hperm.mem_iff.mp ha) b (hperm.mem_iff.mp hb)
  have hviolations : { r with violations }.sortAndDedup.violations =
      r.sortAndDedup.violations := by
    refine eq_of_pairwise_before (pairwise_sortAndDedup _) (pairwise_sortAndDedup r) fun v => ?_
    rw [mem_sortAndDedup_iff hsamePerm, mem_sortAndDedup_iff hsame, hperm.mem_iff]
  exact congrArg (fun l => ({ r with violations := l } : LintResult)) hviolations

/-- A finding that is made once for the template and once for an instance of it. -/
def repeatedFinding : Violation where
  code := "WL001"
  rule := "no-long"
  severity := .warning
  location := { file := ⟨"src//a.cpp"⟩, line := 7, column := 3 }
  message := "Variable 'n' declared as 'long'."

/-- The finding on the line before, in the same file. -/
def earlierFinding : Violation :=
  { repeatedFinding with location := { file := ⟨"src/a.cpp"⟩, line := 6, column := 9 } }

def repeatedFindings : LintResult :=
  { violations := [repeatedFinding, earlierFinding, repeatedFinding], filesChecked := 2 }

theorem repeatedFindings_reordered :
    { repeatedFindings with
      violations := [earlierFinding, repeatedFinding, repeatedFinding] }.sortAndDedup =
        repeatedFindings.sortAndDedup := by
  obtain ⟨-, -, -, -, -, horder⟩ := sortAndDedup_exact repeatedFindings
  exact horder _ (by decide) (by decide)

end LintResult

end WidthCheck
