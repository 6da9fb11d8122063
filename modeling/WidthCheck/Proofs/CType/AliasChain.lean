import WidthCheck.CType.Table
import WidthCheck.Proofs.Text.Trim

/-!
# Chains of aliases

A name is an integer type if a short enough chain of aliases leads from it to an integer type. The
chain ends at the first standard alias or enumeration, so that a name which is one of these and an
alias too is not looked through. Aliases may lead back to themselves, also by way of qualified
names.
-/

namespace WidthCheck

/-! ## The last part of a name -/

namespace Text

/-- What stands after the last pair of colons in a name. A name without one is its own last part. -/
def IsLastPart (name part : List Char) : Prop :=
  (part = name ∧ ¬"::".toList <:+: name) ∨
    ((∃ scope, scope ++ ("::".toList ++ part) = name) ∧ ¬"::".toList <:+: ':' :: part)

-- What has been passed has no pair in it, and none begins at the character before it.
theorem isLastPart_afterLastPairAux (rev seen : List Char)
    (h : ¬"::".toList <:+: rev.take 1 ++ seen) :
    IsLastPart (rev.reverse ++ seen) (afterLastPairAux ':' ':' rev seen) := by
  induction rev generalizing seen with
  | nil => exact .inl ⟨rfl, h⟩
  | cons c rev ih =>
    cases rev with
    | nil => exact .inl ⟨rfl, h⟩
    | cons d rev =>
      rw [afterLastPairAux]
      by_cases hpair : d = ':' ∧ c = ':'
      · rw [if_pos hpair]
        obtain ⟨rfl, rfl⟩ := hpair
        exact .inr ⟨⟨rev.reverse, by simp⟩, h⟩
      · rw [if_neg hpair]
        have hseen : ¬"::".toList <:+: (d :: rev).take 1 ++ c :: seen := by
          show ¬"::".toList <:+: d :: c :: seen
          rw [List.infix_cons_iff, not_or]
          refine ⟨?_, h⟩
          rintro ⟨rest, hrest⟩
          injection hrest with hd hrest
          injection hrest with hc hrest
          exact hpair ⟨hd.symm, hc.symm⟩
        have hlast := ih (c :: seen) hseen
        rwa [List.reverse_cons, List.append_assoc, List.singleton_append]

theorem isLastPart_afterLastPair (cs : List Char) : IsLastPart cs (afterLastPair ':' ':' cs) := by
  have hshort : ¬"::".toList <:+: cs.reverse.take 1 ++ [] := fun hpair => by
    have hlength := hpair.length_le
    rw [List.append_nil, List.length_take] at hlength
    have htwo : "::".toList.length = 2 := rfl
    omega
  have hlast := isLastPart_afterLastPairAux cs.reverse [] hshort
  rwa [List.reverse_reverse, List.append_nil] at hlast

theorem IsLastPart.isSuffix {name part : List Char} (h : IsLastPart name part) : part <:+ name := by
  rcases h with ⟨rfl, -⟩ | ⟨⟨scope, rfl⟩, -⟩
  · exact List.suffix_rfl
  · exact ⟨scope ++ "::".toList, List.append_assoc ..⟩

-- The pair before a shorter part would stand within the longer one.
theorem IsLastPart.length_le {name part other : List Char} (h : IsLastPart name part)
    (hother : IsLastPart name other) : other.length ≤ part.length := by
  rcases h with ⟨rfl, -⟩ | ⟨⟨scope, hscope⟩, -⟩
  · exact hother.isSuffix.length_le
  have hpair : "::".toList ++ part <:+ name := ⟨scope, hscope⟩
  by_contra hlt
  rcases hother with ⟨rfl, hnone⟩ | ⟨⟨scope', rfl⟩, hnone⟩
  · exact hnone ((List.prefix_append _ _).isInfix.trans hpair.isInfix)
  · have hsuffix : ':' :: other <:+ scope' ++ ("::".toList ++ other) :=
      ⟨scope' ++ [':'], by simp⟩
    have hlength : ("::".toList ++ part).length ≤ (':' :: other).length := by
      rw [List.length_append, List.length_cons, show "::".toList.length = 2 from rfl]
      omega
    have hwithin := List.suffix_of_suffix_length_le hpair hsuffix hlength
    exact hnone ((List.prefix_append _ _).isInfix.trans hwithin.isInfix)

theorem isLastPart_iff {name part : List Char} :
    IsLastPart name part ↔ part = afterLastPair ':' ':' name := by
  have hlast := isLastPart_afterLastPair name
  constructor
  · intro h
    have hlength := Nat.le_antisymm (hlast.length_le h) (h.length_le hlast)
    have hsuffix := List.suffix_of_suffix_length_le h.isSuffix hlast.isSuffix hlength.le
    exact hsuffix.eq_of_length hlength
  · rintro rfl
    exact hlast

end Text

/-! ## Chains -/

namespace TypeTable

/-- A name is found as it is written or, if it is not there, by its last part. -/
inductive Finds {α : Type} (entries : List (String × α)) (name : String) (found : α) : Prop where
  | asWritten (h : entries.lookup name = some found)
  | byLastPart {part : String} (hwritten : entries.lookup name = none)
      (hpart : Text.IsLastPart name.toList part.toList) (h : entries.lookup part = some found)

theorem find?_eq_some_iff {α : Type} {entries : List (String × α)} {name : String} {found : α} :
    find? entries name = some found ↔ Finds entries name found := by
  have hpart : Text.IsLastPart name.toList (unqualifiedName name).toList := by
    rw [unqualifiedName, String.toList_ofList]
    exact Text.isLastPart_afterLastPair _
  constructor
  · intro h
    cases hwritten : entries.lookup name with
    | some other =>
      rw [find?, hwritten] at h
      exact .asWritten (hwritten.trans h)
    | none =>
      rw [find?, hwritten] at h
      exact .byLastPart hwritten hpart h
  · rintro (hwritten | ⟨hwritten, hlast, h⟩)
    · rw [find?, hwritten]
    · rename_i part
      have hsame : part = unqualifiedName name := by
        rw [unqualifiedName, ← Text.isLastPart_iff.mp hlast, String.ofList_toList]
      rw [find?, hwritten, ← hsame, h]

theorem Finds.det {α : Type} {entries : List (String × α)} {name : String} {found other : α}
    (h : Finds entries name found) (hother : Finds entries name other) : found = other :=
  Option.some.inj ((find?_eq_some_iff.mpr h).symm.trans (find?_eq_some_iff.mpr hother))

/-- The types that are integers as they stand, whatever their qualifiers. -/
inductive IsPlainInteger (table : TypeTable) : QualType → Prop where
  | builtin {spelling : String} (h : Builtin.isInteger spelling = true) (q : Quals) :
      IsPlainInteger table (.base .builtin spelling q)
  | standard {name : String} (h : isStandardIntegerAlias name = true) (q : Quals) :
      IsPlainInteger table (.base .named name q)
  | enumeration {name : String} (h : Finds table.enums name false) (q : Quals) :
      IsPlainInteger table (.base .named name q)

/-- The names that are not looked through. -/
def IsFinal (table : TypeTable) (name : String) : Prop :=
  isStandardIntegerAlias name = true ∨ ∃ isScoped, Finds table.enums name isScoped

/-- A number of aliases lead from one type to another. -/
inductive Follows (table : TypeTable) : Nat → QualType → QualType → Prop where
  | here (ty : QualType) : Follows table 0 ty ty
  | step {name : String} {q : Quals} {target last : QualType} {n : Nat}
      (h : Finds table.aliases name target) (rest : Follows table n target last) :
      Follows table (n + 1) (.base .named name q) last

variable {table : TypeTable}

theorem Follows.trans {m n : Nat} {ty middle last : QualType} (h : table.Follows m ty middle)
    (hrest : table.Follows n middle last) : table.Follows (m + n) ty last := by
  induction h with
  | here => rwa [Nat.zero_add]
  | step hname _ ih =>
    rw [Nat.add_right_comm]
    exact .step hname (ih hrest)

theorem Follows.det {n : Nat} {ty last other : QualType} (h : table.Follows n ty last)
    (hother : table.Follows n ty other) : last = other := by
  induction h with
  | here =>
    cases hother
    rfl
  | step hname _ ih =>
    cases hother with
    | step hname' hrest =>
      cases hname.det hname'
      exact ih hrest

theorem Follows.exists_middle {m n : Nat} {ty last : QualType} (h : table.Follows (m + n) ty last) :
    ∃ middle, table.Follows m ty middle ∧ table.Follows n middle last := by
  induction m generalizing ty with
  | zero =>
    rw [Nat.zero_add] at h
    exact ⟨ty, .here ty, h⟩
  | succ m ih =>
    rw [Nat.add_right_comm] at h
    cases h with
    | step hname hrest =>
      obtain ⟨middle, hmiddle, hlast⟩ := ih hrest
      exact ⟨middle, .step hname hmiddle, hlast⟩

-- Neither being an integer nor where an alias leads depends on qualifiers.
theorem IsPlainInteger.of_unqualified_eq {ty other : QualType} (h : table.IsPlainInteger ty)
    (hsame : ty.unqualified = other.unqualified) : table.IsPlainInteger other := by
  cases other with
  | layer => cases h <;> cases hsame
  | base kind name q =>
    cases h with
    | builtin hname => cases hsame; exact .builtin hname q
    | standard hname => cases hsame; exact .standard hname q
    | enumeration hname => cases hsame; exact .enumeration hname q

theorem Follows.of_unqualified_eq {n : Nat} {ty other last : QualType}
    (h : table.Follows n ty last) (hsame : ty.unqualified = other.unqualified) :
    ∃ last', table.Follows n other last' ∧ last.unqualified = last'.unqualified := by
  cases h with
  | here => exact ⟨other, .here other, hsame⟩
  | step hname hrest =>
    cases other with
    | layer => cases hsame
    | base kind name q =>
      cases hsame
      exact ⟨last, .step hname hrest, rfl⟩

/-! ## Integers -/

/-- A chain that ends in an integer type and passes no name that is not looked through. -/
def LeadsToInteger (table : TypeTable) (n : Nat) (ty : QualType) : Prop :=
  ∃ last, table.Follows n ty last ∧ table.IsPlainInteger last ∧
    ∀ m < n, ∀ name q, table.Follows m ty (.base .named name q) → ¬table.IsFinal name

theorem leadsToInteger_zero_iff {ty : QualType} :
    table.LeadsToInteger 0 ty ↔ table.IsPlainInteger ty := by
  constructor
  · rintro ⟨last, hfollows, hlast, -⟩
    cases hfollows
    exact hlast
  · intro h
    exact ⟨ty, .here ty, h, fun m hm => absurd hm (Nat.not_lt_zero m)⟩

theorem leadsToInteger_succ_iff {n : Nat} {ty : QualType} :
    table.LeadsToInteger (n + 1) ty ↔ ∃ name q target, ty = .base .named name q ∧
      ¬table.IsFinal name ∧ Finds table.aliases name target ∧ table.LeadsToInteger n target := by
  constructor
  · rintro ⟨last, hfollows, hlast, hpassed⟩
    cases hfollows with
    | step hname hrest =>
      rename_i name q target
      refine ⟨name, q, target, rfl, hpassed 0 (Nat.succ_pos n) name q (.here _), hname, last, hrest,
        hlast, ?_⟩
      intro m hm name' q' hm'
      exact hpassed (m + 1) (Nat.succ_lt_succ hm) name' q' (.step hname hm')
  · rintro ⟨name, q, target, rfl, hfirst, hname, last, hrest, hlast, hpassed⟩
    refine ⟨last, .step hname hrest, hlast, ?_⟩
    intro m hm name' q' hm'
    cases hm' with
    | here => exact hfirst
    | step hname' hrest' =>
      cases hname.det hname'
      exact hpassed _ (Nat.lt_of_succ_lt_succ hm) name' q' hrest'

theorem alias?_eq_some_iff {name : String} {target : QualType} :
    table.alias? name = some target ↔ Finds table.aliases name target :=
  find?_eq_some_iff

theorem enumScoped?_eq_some_iff {name : String} {isScoped : Bool} :
    table.enumScoped? name = some isScoped ↔ Finds table.enums name isScoped :=
  find?_eq_some_iff

theorem isPlainInteger_named_iff {name : String} {q : Quals} :
    table.IsPlainInteger (.base .named name q) ↔
      isStandardIntegerAlias name = true ∨ table.enumScoped? name = some false := by
  constructor
  · intro h
    cases h with
    | standard h => exact .inl h
    | enumeration h => exact .inr (enumScoped?_eq_some_iff.mpr h)
  · rintro (h | h)
    · exact .standard h q
    · exact .enumeration (enumScoped?_eq_some_iff.mp h) q

theorem isFinal_iff {name : String} :
    table.IsFinal name ↔
      isStandardIntegerAlias name = true ∨ (table.enumScoped? name).isSome = true := by
  simp only [IsFinal, Option.isSome_iff_exists, enumScoped?_eq_some_iff]

-- A name is settled by the first of the three tables that has it.
theorem isIntegerWithin_named_iff (steps : Nat) (name : String) (q : Quals) :
    table.isIntegerWithin steps (.base .named name q) = true ↔
      table.IsPlainInteger (.base .named name q) ∨ ¬table.IsFinal name ∧
        ∃ rest target, steps = rest + 1 ∧ Finds table.aliases name target ∧
          table.isIntegerWithin rest target = true := by
  rw [isPlainInteger_named_iff, isFinal_iff, isIntegerWithin.eq_def]
  simp only [← alias?_eq_some_iff]
  by_cases hstandard : isStandardIntegerAlias name = true
  · simp [hstandard]
  cases henum : table.enumScoped? name with
  | some isScoped => simp [hstandard]
  | none =>
    cases steps with
    | zero => simp [hstandard]
    | succ rest => cases halias : table.alias? name <;> simp [hstandard]

theorem isIntegerWithin_step_iff (steps : Nat) (ty : QualType) :
    table.isIntegerWithin steps ty = true ↔
      table.IsPlainInteger ty ∨ ∃ name q, ty = .base .named name q ∧ ¬table.IsFinal name ∧
        ∃ rest target, steps = rest + 1 ∧ Finds table.aliases name target ∧
          table.isIntegerWithin rest target = true := by
  by_cases hnamed : ∃ name q, ty = .base .named name q
  · obtain ⟨name, q, rfl⟩ := hnamed
    rw [isIntegerWithin_named_iff]
    simp
  · have hplain : table.isIntegerWithin steps ty = true ↔ table.IsPlainInteger ty := by
      cases ty with
      | layer =>
        exact iff_of_false (by cases steps <;> exact Bool.false_ne_true) (fun h => by cases h)
      | base kind name q =>
        cases kind with
        | builtin =>
          have hname : table.isIntegerWithin steps (.base .builtin name q) =
              Builtin.isInteger name := by cases steps <;> rfl
          rw [hname]
          exact ⟨fun h => .builtin h q, fun h => by cases h; assumption⟩
        | named => exact absurd ⟨name, q, rfl⟩ hnamed
        | templateParam =>
          exact iff_of_false (by cases steps <;> exact Bool.false_ne_true) (fun h => by cases h)
    rw [hplain, or_iff_left]
    rintro ⟨name, q, hty, -⟩
    exact hnamed ⟨name, q, hty⟩

theorem isIntegerWithin_iff (steps : Nat) (ty : QualType) :
    table.isIntegerWithin steps ty = true ↔ ∃ n ≤ steps, table.LeadsToInteger n ty := by
  constructor
  · intro h
    induction steps generalizing ty with
    | zero =>
      rcases (isIntegerWithin_step_iff 0 ty).mp h with hplain | ⟨_, _, -, -, rest, _, hrest, -⟩
      · exact ⟨0, Nat.le_refl 0, leadsToInteger_zero_iff.mpr hplain⟩
      · exact absurd hrest (Nat.succ_ne_zero rest).symm
    | succ steps ih =>
      rcases (isIntegerWithin_step_iff (steps + 1) ty).mp h with
        hplain | ⟨name, q, rfl, hfinal, rest, target, hrest, halias, hwithin⟩
      · exact ⟨0, Nat.zero_le _, leadsToInteger_zero_iff.mpr hplain⟩
      · obtain rfl := Nat.succ.inj hrest
        obtain ⟨n, hn, hleads⟩ := ih target hwithin
        exact ⟨n + 1, Nat.succ_le_succ hn,
          leadsToInteger_succ_iff.mpr ⟨name, q, target, rfl, hfinal, halias, hleads⟩⟩
  · rintro ⟨n, hn, h⟩
    rw [isIntegerWithin_step_iff]
    induction n generalizing steps ty with
    | zero => exact .inl (leadsToInteger_zero_iff.mp h)
    | succ n ih =>
      obtain ⟨name, q, target, rfl, hfinal, halias, hleads⟩ := leadsToInteger_succ_iff.mp h
      obtain ⟨rest, rfl⟩ := Nat.exists_eq_add_of_le' (Nat.le_trans (Nat.succ_pos n) hn)
      have hwithin := ih rest target (Nat.le_of_succ_le_succ hn) hleads
      rw [← isIntegerWithin_step_iff] at hwithin
      exact .inr ⟨name, q, rfl, hfinal, rest, target, rfl, halias, hwithin⟩

/-! ## Cycles -/

/-- After some aliases the chain comes back to a type it has passed, qualifiers apart. Up to there
none of its types is an integer as it stands. -/
structure Circles (table : TypeTable) (ty : QualType) (before period : Nat) : Prop where
  period_pos : 0 < period
  returns : ∃ start back, table.Follows before ty start ∧ table.Follows period start back ∧
    back.unqualified = start.unqualified
  meets_none : ∀ n < before + period, ∀ passed, table.Follows n ty passed →
    ¬table.IsPlainInteger passed

-- What comes after a full circle has been there one circle before.
theorem Circles.not_isPlainInteger {ty : QualType} {before period : Nat}
    (h : table.Circles ty before period) (n : Nat) {last : QualType}
    (hlast : table.Follows n ty last) : ¬table.IsPlainInteger last := by
  induction n using Nat.strong_induction_on generalizing last with
  | _ n ih =>
    by_cases hn : n < before + period
    · exact h.meets_none n hn last hlast
    obtain ⟨more, rfl⟩ := Nat.exists_eq_add_of_le (Nat.le_of_not_lt hn)
    obtain ⟨start, back, hstart, hback, hsame⟩ := h.returns
    obtain ⟨middle, hmiddle, hrest⟩ := hlast.exists_middle
    obtain rfl := hmiddle.det (hstart.trans hback)
    obtain ⟨earlier, hearlier, hequal⟩ := hrest.of_unqualified_eq hsame
    have hnot := ih (before + more) (by have := h.period_pos; omega) (hstart.trans hearlier)
    exact fun hplain => hnot (hplain.of_unqualified_eq hequal)

/-- A type is an integer type if and only if a chain of at most 32 aliases leads from it to a type
that is one as it stands, past no standard alias and no enumeration. A chain that goes round in a
circle without meeting such a type leads to none, and only names and builtin types can be
integers. -/
theorem isInteger_exact (table : TypeTable) (ty : QualType) :
    (table.isInteger ty = true ↔ ∃ n ≤ 32, ∃ last, table.Follows n ty last ∧
      table.IsPlainInteger last ∧ ∀ m < n, ∀ name q,
        table.Follows m ty (.base .named name q) → ¬table.IsFinal name) ∧
    (∀ before period, table.Circles ty before period → table.isInteger ty = false) ∧
    (∀ layer inner q, ty = .layer layer inner q → table.isInteger ty = false) ∧
    ∀ name q, ty = .base .templateParam name q → table.isInteger ty = false := by
  have hexact : table.isInteger ty = true ↔ ∃ n ≤ 32, table.LeadsToInteger n ty :=
    isIntegerWithin_iff aliasLimit ty
  refine ⟨hexact, ?_, ?_, ?_⟩
  · intro before period hcircles
    rw [← Bool.not_eq_true, hexact]
    rintro ⟨n, -, last, hfollows, hplain, -⟩
    exact hcircles.not_isPlainInteger n hfollows hplain
  · rintro layer inner q rfl
    rfl
  · rintro name q rfl
    rfl

/-- An alias that stands for itself, by a qualified name. -/
def selfTable : TypeTable where
  aliases := [("a", .base .named "n::a" .const)]

theorem selfTable_circles : selfTable.Circles (.named "n::a") 0 1 where
  period_pos := Nat.one_pos
  returns := by
    have halias : Finds selfTable.aliases "n::a" (.base .named "n::a" .const) :=
      alias?_eq_some_iff.mp (by decide)
    exact ⟨_, _, .here _, .step halias (.here _), rfl⟩
  meets_none n hn passed hpassed := by
    obtain rfl := Nat.lt_one_iff.mp hn
    cases hpassed
    rw [QualType.named, isPlainInteger_named_iff]
    decide

theorem isInteger_selfTable :
    selfTable.Circles (.named "n::a") 0 1 ∧ selfTable.isInteger (.named "n::a") = false :=
  ⟨selfTable_circles, (isInteger_exact selfTable (.named "n::a")).2.1 0 1 selfTable_circles⟩

end TypeTable

end WidthCheck
