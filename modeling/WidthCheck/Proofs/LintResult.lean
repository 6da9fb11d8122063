import WidthCheck.LintResult
import WidthCheck.Proofs.Path

/-!
# Sorting findings part by part

If all findings of one part come before those of the next, sorting the whole and keeping each
finding once is doing so in each part. Findings can be left out before or after, if those that are
the same are left out together.
-/

namespace WidthCheck

/-! ## Stable sorting -/

theorem takeWhile_dropWhile_append {α : Type} {p : α → Bool} {back : List α}
    (h : ∀ b ∈ back, p b = false) (front : List α) :
    (front ++ back).takeWhile p = front.takeWhile p ∧
      (front ++ back).dropWhile p = front.dropWhile p ++ back := by
  induction front with
  | nil =>
    cases back with
    | nil => simp
    | cons b back => simp [h b List.mem_cons_self]
  | cons a front ih => cases ha : p a <;> simp [ha, ih]

section

variable {α : Type} {le : α → α → Bool}
  (trans : ∀ a b c, le a b = true → le b c = true → le a c = true)
  (total : ∀ a b, (le a b || le b a) = true)

include trans

-- In a sorted list the items that are less than `a` are those in front.
theorem takeWhile_eq_filter {l : List α} (hsorted : l.Pairwise fun b c => le b c = true) (a : α) :
    l.takeWhile (!le a ·) = l.filter (!le a ·) ∧ l.dropWhile (!le a ·) = l.filter (le a ·) := by
  induction l with
  | nil => exact ⟨rfl, rfl⟩
  | cons b l ih =>
    obtain ⟨hb, hl⟩ := List.pairwise_cons.mp hsorted
    obtain ⟨htake, hdrop⟩ := ih hl
    cases hab : le a b with
    | false => simp [hab, htake, hdrop]
    | true =>
      have hall : ∀ c ∈ l, le a c = true := fun c hc => trans a b c hab (hb c hc)
      have hnone : l.filter (!le a ·) = [] := by
        rw [List.filter_eq_nil_iff]
        intro c hc
        simp [hall c hc]
      simp [hab, hnone, List.filter_eq_self.mpr hall]

include total

-- Sorting puts the first item right before those that are not less.
theorem mergeSort_cons_eq (a : α) (l : List α) :
    (a :: l).mergeSort le =
      (l.mergeSort le).takeWhile (!le a ·) ++ a :: (l.mergeSort le).dropWhile (!le a ·) := by
  obtain ⟨less, rest, hwhole, hparts, hless⟩ := List.mergeSort_cons trans total a l
  have hsorted : (less ++ a :: rest).Pairwise fun a b => le a b = true := by
    rw [← hwhole]
    exact List.pairwise_mergeSort trans total (a :: l)
  have hrest : ∀ b ∈ rest, le a b = true :=
    (List.pairwise_cons.mp (List.pairwise_append.mp hsorted).2.1).1
  rw [hwhole, hparts, List.takeWhile_append_of_pos hless, List.dropWhile_append_of_pos hless]
  cases rest with
  | nil => simp
  | cons b rest => simp [hrest b List.mem_cons_self]

theorem mergeSort_append {front back : List α} (h : ∀ a ∈ front, ∀ b ∈ back, le b a = false) :
    (front ++ back).mergeSort le = front.mergeSort le ++ back.mergeSort le := by
  induction front with
  | nil => simp
  | cons a front ih =>
    obtain ⟨ha, hfront⟩ := List.forall_mem_cons.mp h
    have hback : ∀ b ∈ back.mergeSort le, (!le a b) = false := by
      intro b hb
      have hle := total a b
      rw [ha b (List.mem_mergeSort.mp hb), Bool.or_false] at hle
      rw [hle, Bool.not_true]
    obtain ⟨htake, hdrop⟩ := takeWhile_dropWhile_append hback (front.mergeSort le)
    rw [List.cons_append, mergeSort_cons_eq trans total, ih hfront, mergeSort_cons_eq trans total,
      htake, hdrop, List.append_assoc, List.cons_append]

-- Leaving items out before sorting is leaving them out afterwards.
theorem filter_mergeSort (p : α → Bool) (l : List α) :
    (l.mergeSort le).filter p = (l.filter p).mergeSort le := by
  induction l with
  | nil => simp
  | cons a l ih =>
    have hsorted := List.pairwise_mergeSort trans total l
    rw [mergeSort_cons_eq trans total, List.filter_append]
    cases ha : p a with
    | false =>
      rw [List.filter_cons_of_neg (by simp [ha]), List.filter_cons_of_neg (by simp [ha]),
        ← List.filter_append, List.takeWhile_append_dropWhile, ih]
    | true =>
      obtain ⟨htake, hdrop⟩ := takeWhile_eq_filter trans hsorted a
      obtain ⟨htakeKept, hdropKept⟩ := takeWhile_eq_filter trans (hsorted.filter p) a
      rw [List.filter_cons_of_pos ha, List.filter_cons_of_pos ha, mergeSort_cons_eq trans total,
        ← ih, htake, hdrop, htakeKept, hdropKept]
      simp only [List.filter_filter, Bool.and_comm]

end

theorem isLE_total {α : Type} {cmp : α → α → Ordering} [Std.OrientedCmp cmp] (a b : α) :
    ((cmp a b).isLE || (cmp b a).isLE) = true := by
  have hswap : cmp b a = (cmp a b).swap := Std.OrientedCmp.eq_swap
  rw [hswap]
  cases cmp a b <;> rfl

instance : Std.TransCmp Violation.compare :=
  have : Std.TransCmp fun a b : Violation => Path.compare a.location.file b.location.file :=
    transCmp_on fun v : Violation => v.location.file
  inferInstanceAs (Std.TransCmp (compareLex _ _))

namespace LintResult

/-! ## Keeping each finding once -/

theorem dedupAfter_append {kept : Violation} {front back : List Violation}
    (hkept : ∀ b ∈ back, kept.compare b = .lt)
    (h : ∀ a ∈ front, ∀ b ∈ back, a.compare b = .lt) :
    dedupAfter kept (front ++ back) = dedupAfter kept front ++ dedup back := by
  induction front generalizing kept with
  | nil =>
    cases back with
    | nil => rfl
    | cons b back =>
      have hne : kept.compare b ≠ .eq := by
        rw [hkept b List.mem_cons_self]
        decide
      exact if_neg hne
  | cons a front ih =>
    obtain ⟨ha, hfront⟩ := List.forall_mem_cons.mp h
    rw [List.cons_append, dedupAfter, dedupAfter]
    split
    · exact ih hkept hfront
    · rw [ih ha hfront, List.cons_append]

theorem dedup_append {front back : List Violation}
    (h : ∀ a ∈ front, ∀ b ∈ back, a.compare b = .lt) :
    dedup (front ++ back) = dedup front ++ dedup back := by
  cases front with
  | nil => rfl
  | cons a front =>
    obtain ⟨ha, hfront⟩ := List.forall_mem_cons.mp h
    rw [List.cons_append, dedup, dedup, dedupAfter_append ha hfront, List.cons_append]

theorem sortAndDedup_append {front back : List Violation}
    (h : ∀ a ∈ front, ∀ b ∈ back, a.compare b = .lt) :
    (sortAndDedup { violations := front ++ back }).violations =
      (sortAndDedup { violations := front }).violations ++
        (sortAndDedup { violations := back }).violations := by
  have hnot : ∀ a ∈ front, ∀ b ∈ back, (b.compare a).isLE = false := by
    intro a ha b hb
    have hswap : b.compare a = (a.compare b).swap := Std.OrientedCmp.eq_swap
    rw [hswap, h a ha b hb]
    rfl
  unfold sortAndDedup
  simp only
  rw [mergeSort_append (fun _ _ _ => Std.TransCmp.isLE_trans) isLE_total hnot, dedup_append]
  intro a ha b hb
  exact h a (List.mem_mergeSort.mp ha) b (List.mem_mergeSort.mp hb)

/-- Parts that follow each other are sorted one by one. -/
theorem sortAndDedup_flatten {parts : List (List Violation)}
    (h : parts.Pairwise fun front back => ∀ a ∈ front, ∀ b ∈ back, a.compare b = .lt) :
    (sortAndDedup { violations := parts.flatten }).violations =
      (parts.map fun part => (sortAndDedup { violations := part }).violations).flatten := by
  induction parts with
  | nil => simp [sortAndDedup, dedup]
  | cons part parts ih =>
    obtain ⟨hpart, hparts⟩ := List.pairwise_cons.mp h
    have hbefore : ∀ a ∈ part, ∀ b ∈ parts.flatten, a.compare b = .lt := by
      intro a ha b hb
      obtain ⟨back, hback, hb⟩ := List.mem_flatten.mp hb
      exact hpart back hback a ha b hb
    rw [List.flatten_cons, sortAndDedup_append hbefore, ih hparts, List.map_cons, List.flatten_cons]

/-! ## Leaving findings out -/

variable {p : Violation → Bool}

-- Findings that are the same stand together, so one that is left out never separates two of them.
theorem filter_dedupAfter {kept : Violation} {l : List Violation}
    (hsorted : (kept :: l).Pairwise fun a b => (a.compare b).isLE = true)
    (hp : ∀ a ∈ kept :: l, ∀ b ∈ kept :: l, a.compare b = .eq → p a = p b) :
    (dedupAfter kept l).filter p =
      if p kept then dedupAfter kept (l.filter p) else dedup (l.filter p) := by
  induction l generalizing kept with
  | nil => simp [dedupAfter, dedup]
  | cons v l ih =>
    obtain ⟨hkept, hrest⟩ := List.pairwise_cons.mp hsorted
    have hkeptRest : (kept :: l).Pairwise fun a b => (a.compare b).isLE = true :=
      hsorted.sublist (List.Sublist.cons_cons _ (List.sublist_cons_self v l))
    have hpRest : ∀ a ∈ v :: l, ∀ b ∈ v :: l, a.compare b = .eq → p a = p b :=
      fun a ha b hb => hp a (List.mem_cons_of_mem _ ha) b (List.mem_cons_of_mem _ hb)
    by_cases hsame : kept.compare v = .eq
    · have hpv : p kept = p v :=
        hp kept List.mem_cons_self v (List.mem_cons_of_mem _ List.mem_cons_self) hsame
      have hpKept : ∀ a ∈ kept :: l, ∀ b ∈ kept :: l, a.compare b = .eq → p a = p b :=
        fun a ha b hb => hp a (List.cons_subset_cons _ (List.subset_cons_self v l) ha) b
          (List.cons_subset_cons _ (List.subset_cons_self v l) hb)
      rw [dedupAfter, if_pos hsame, ih hkeptRest hpKept]
      cases hv : p v with
      | true => simp [hpv, hv, dedupAfter, hsame]
      | false => simp [hpv, hv]
    · rw [dedupAfter, if_neg hsame, List.filter_cons, ih hrest hpRest]
      cases hv : p v with
      | true => simp [hv, dedupAfter, dedup, hsame]
      | false =>
        have hlt : ∀ w ∈ l.filter p, kept.compare w = .lt := by
          intro w hw
          have hkv : kept.compare v = .lt := (Ordering.isLE_iff_eq_lt_or_eq_eq.mp
            (hkept v List.mem_cons_self)).resolve_right hsame
          exact Std.TransCmp.lt_of_lt_of_isLE hkv
            ((List.pairwise_cons.mp hrest).1 w (List.mem_filter.mp hw).1)
        have hafter : dedupAfter kept ([] ++ l.filter p) = dedup (l.filter p) :=
          dedupAfter_append hlt (by simp)
        rw [List.nil_append] at hafter
        simp [hv, hafter]

theorem filter_dedup {l : List Violation}
    (hsorted : l.Pairwise fun a b => (a.compare b).isLE = true)
    (hp : ∀ a ∈ l, ∀ b ∈ l, a.compare b = .eq → p a = p b) :
    (dedup l).filter p = dedup (l.filter p) := by
  cases l with
  | nil => rfl
  | cons v l =>
    rw [dedup, List.filter_cons, filter_dedupAfter hsorted hp]
    cases hv : p v with
    | true => simp [hv, dedup]
    | false => simp [hv]

theorem mem_of_mem_dedupAfter {kept v : Violation} {l : List Violation}
    (h : v ∈ dedupAfter kept l) : v ∈ l := by
  induction l generalizing kept with
  | nil => exact h
  | cons w l ih =>
    rw [dedupAfter] at h
    split at h
    · exact List.mem_cons_of_mem w (ih h)
    · rcases List.mem_cons.mp h with rfl | h
      · exact List.mem_cons_self
      · exact List.mem_cons_of_mem w (ih h)

theorem mem_of_mem_dedup {v : Violation} {l : List Violation} (h : v ∈ dedup l) : v ∈ l := by
  cases l with
  | nil => exact h
  | cons w l =>
    rcases List.mem_cons.mp h with rfl | h
    · exact List.mem_cons_self
    · exact List.mem_cons_of_mem w (mem_of_mem_dedupAfter h)

theorem mem_of_mem_sortAndDedup {v : Violation} {l : List Violation}
    (h : v ∈ (sortAndDedup { violations := l }).violations) : v ∈ l :=
  List.mem_mergeSort.mp (mem_of_mem_dedup h)

/-- Findings that are the same are kept or left out together, so it does not matter whether the
others are left out before or after sorting. -/
theorem filter_sortAndDedup {l : List Violation}
    (hp : ∀ a ∈ l, ∀ b ∈ l, a.compare b = .eq → p a = p b) :
    (sortAndDedup { violations := l }).violations.filter p =
      (sortAndDedup { violations := l.filter p }).violations := by
  have hsorted : (l.mergeSort fun a b => (Violation.compare a b).isLE).Pairwise
      fun a b => (a.compare b).isLE = true :=
    List.pairwise_mergeSort (fun _ _ _ => Std.TransCmp.isLE_trans) isLE_total l
  unfold sortAndDedup
  simp only
  rw [filter_dedup hsorted, filter_mergeSort (fun _ _ _ => Std.TransCmp.isLE_trans) isLE_total]
  intro a ha b hb
  exact hp a (List.mem_mergeSort.mp ha) b (List.mem_mergeSort.mp hb)

end LintResult

end WidthCheck
