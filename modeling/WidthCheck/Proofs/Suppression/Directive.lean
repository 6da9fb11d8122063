import WidthCheck.Proofs.Text.Trim
import WidthCheck.Suppression

/-!
# Written directives

A directive in one of its written forms is read back as it was written, whatever code stands before
the comment. The rules of a list are its entries without the blanks around them.
-/

namespace WidthCheck.Directive

open Text

/-! ## Comments -/

/-- No comment begins in a text. -/
def HasNoMark (cs : List Char) : Prop := ¬"//".toList <:+: cs ∧ ¬"/*".toList <:+: cs

instance (cs : List Char) : Decidable (HasNoMark cs) := inferInstanceAs (Decidable (_ ∧ _))

theorem HasNoMark.tail {c : Char} {cs : List Char} (h : HasNoMark (c :: cs)) : HasNoMark cs :=
  ⟨fun hline => h.1 (hline.trans (List.suffix_cons c cs).isInfix),
    fun hblock => h.2 (hblock.trans (List.suffix_cons c cs).isInfix)⟩

-- Code may end in a slash, which is then the first of the mark.
theorem afterMark_append {front : List Char} (h : HasNoMark front) (rest : List Char) :
    ∃ slashes, (∀ c ∈ slashes, c = '/') ∧
      afterMark (front ++ ("//".toList ++ rest)) = some (slashes ++ rest) := by
  induction front with
  | nil => exact ⟨[], by simp, rfl⟩
  | cons c front ih =>
    obtain ⟨slashes, hslashes, hmark⟩ := ih h.tail
    by_cases hc : c = '/'
    · subst hc
      cases front with
      | nil => exact ⟨['/'], by simp, rfl⟩
      | cons d front =>
        have hline : d ≠ '/' := by
          rintro rfl
          exact h.1 ⟨[], front, rfl⟩
        have hblock : d ≠ '*' := by
          rintro rfl
          exact h.2 ⟨[], front, rfl⟩
        refine ⟨slashes, hslashes, ?_⟩
        rw [← hmark]
        simp [afterMark, hline, hblock]
    · refine ⟨slashes, hslashes, ?_⟩
      rw [← hmark]
      simp [afterMark, hc]

/-- The text of a comment that is read as it is written. -/
structure IsRemark (cs : List Char) : Prop where
  ne_nil : cs ≠ []
  isTrimmed : IsTrimmed cs
  stays_open : ¬"*/".toList <:+ cs

theorem commentText_append {front body : List Char} (hfront : HasNoMark front)
    (hbody : IsRemark body) : commentText (front ++ ("// ".toList ++ body)) = some body := by
  obtain ⟨slashes, hslashes, hmark⟩ := afterMark_append hfront (' ' :: body)
  have hdrop : (slashes ++ ' ' :: body).dropWhile (· == '/') = ' ' :: body := by
    rw [List.dropWhile_append_of_pos (by simpa using hslashes)]
    rfl
  have hopen : "*/".toList.isSuffixOf? (' ' :: body) = none := by
    apply isSuffixOf?_eq_none
    rw [List.suffix_cons_iff, not_or]
    exact ⟨by simp, hbody.stays_open⟩
  rw [commentText, show "// ".toList ++ body = "//".toList ++ ' ' :: body from rfl, hmark,
    Option.map_some, hdrop]
  show some (trim (("*/".toList.isSuffixOf? (' ' :: body)).getD (' ' :: body))) = some body
  rw [hopen, Option.getD_none, trim_space,
    hbody.isTrimmed.trim_eq hbody.ne_nil]

/-- The end of the text of a comment that is read as it is written, whatever stands before it. -/
structure IsRemarkEnd (cs : List Char) : Prop where
  ne_nil : cs ≠ []
  last_not_isBlank : ∀ c ∈ cs.getLast?, isBlank c = false
  stays_open (front : List Char) : ¬"*/".toList <:+ front ++ cs

theorem IsRemarkEnd.append {cs : List Char} (h : IsRemarkEnd cs) (front : List Char) :
    IsRemarkEnd (front ++ cs) where
  ne_nil := List.append_ne_nil_of_right_ne_nil front h.ne_nil
  last_not_isBlank := by
    rw [List.getLast?_append_of_ne_nil _ h.ne_nil]
    exact h.last_not_isBlank
  stays_open before := by
    rw [← List.append_assoc]
    exact h.stays_open (before ++ front)

theorem IsRemarkEnd.isRemark {cs : List Char} (h : IsRemarkEnd cs) (first : Char)
    (hfirst : isBlank first = false) : IsRemark (first :: cs) where
  ne_nil := List.cons_ne_nil first cs
  isTrimmed := ⟨by simpa using hfirst, (h.append [first]).last_not_isBlank⟩
  stays_open := h.stays_open [first]

theorem isRemarkEnd_singleton {last : Char} (hblank : isBlank last = false) (hslash : last ≠ '/') :
    IsRemarkEnd [last] where
  ne_nil := List.cons_ne_nil _ _
  last_not_isBlank := by simpa using hblank
  stays_open front := by
    rintro ⟨before, hbefore⟩
    have hlast := congrArg List.getLast? hbefore
    rw [List.getLast?_append, List.getLast?_concat] at hlast
    exact hslash (Option.some.inj hlast).symm

-- The character before a remark is a space, and no part of the mark that would end it.
theorem IsRemark.isRemarkEnd {cs : List Char} (h : IsRemark cs) : IsRemarkEnd (' ' :: cs) where
  ne_nil := List.cons_ne_nil _ _
  last_not_isBlank := by
    rw [show ' ' :: cs = [' '] ++ cs from rfl, List.getLast?_append_of_ne_nil _ h.ne_nil]
    exact h.isTrimmed.2
  stays_open front := by
    intro hsuffix
    have hshort : "*/".toList.length ≤ (' ' :: cs).length :=
      Nat.succ_le_succ (List.length_pos_iff.mpr h.ne_nil)
    have hend := List.suffix_of_suffix_length_le hsuffix (List.suffix_append front _) hshort
    rcases List.suffix_cons_iff.mp hend with heq | hclosed
    · simp at heq
    · exact h.stays_open hclosed

/-! ## Lists of rules -/

/-- A name or code as it can stand in a list. -/
structure IsRuleId (id : List Char) : Prop where
  ne_nil : id ≠ []
  isTrimmed : IsTrimmed id
  no_comma : ',' ∉ id
  no_paren : ')' ∉ id

/-- The written lists of rules: commas between them, and blanks around each of them. -/
inductive ListsRules : List (List Char) → List Char → Prop
  | one {id before after : List Char} (hid : IsRuleId id)
      (hbefore : ∀ c ∈ before, isBlank c = true) (hafter : ∀ c ∈ after, isBlank c = true) :
      ListsRules [id] (before ++ (id ++ after))
  | more {id before after list : List Char} {ids : List (List Char)} (hid : IsRuleId id)
      (hbefore : ∀ c ∈ before, isBlank c = true) (hafter : ∀ c ∈ after, isBlank c = true)
      (hlist : ListsRules ids list) :
      ListsRules (id :: ids) (before ++ (id ++ after) ++ ',' :: list)

-- Blanks are neither commas nor parentheses.
theorem not_mem_padded {id before after : List Char} {c : Char} (hc : isBlank c = false)
    (hid : c ∉ id) (hbefore : ∀ c ∈ before, isBlank c = true)
    (hafter : ∀ c ∈ after, isBlank c = true) : c ∉ before ++ (id ++ after) := by
  have hgap {gap : List Char} (hgap : ∀ c ∈ gap, isBlank c = true) : c ∉ gap :=
    fun hmem => by rw [hgap c hmem] at hc; cases hc
  rw [List.mem_append, List.mem_append, not_or, not_or]
  exact ⟨hgap hbefore, hid, hgap hafter⟩

theorem ListsRules.no_paren {ids : List (List Char)} {list : List Char} (h : ListsRules ids list) :
    ')' ∉ list := by
  induction h with
  | one hid hbefore hafter => exact not_mem_padded (by decide) hid.no_paren hbefore hafter
  | more hid hbefore hafter _ ih =>
    rw [List.mem_append, List.mem_cons, not_or, not_or]
    exact ⟨not_mem_padded (by decide) hid.no_paren hbefore hafter, by decide, ih⟩

theorem ListsRules.ne_nil {ids : List (List Char)} {list : List Char} (h : ListsRules ids list) :
    ids ≠ [] := by
  cases h <;> exact List.cons_ne_nil _ _

theorem ListsRules.ne_nil_of_mem {ids : List (List Char)} {list : List Char}
    (h : ListsRules ids list) : ∀ id ∈ ids, id ≠ [] := by
  induction h with
  | one hid => simpa using hid.ne_nil
  | more hid _ _ _ ih => exact List.forall_mem_cons.mpr ⟨hid.ne_nil, ih⟩

theorem ListsRules.map_trim_splitWhere {ids : List (List Char)} {list : List Char}
    (h : ListsRules ids list) : (splitWhere (· == ',') list).map trim = ids := by
  have hpiece {id before after : List Char} (hid : IsRuleId id)
      (hbefore : ∀ c ∈ before, isBlank c = true) (hafter : ∀ c ∈ after, isBlank c = true) :
      ∀ c ∈ before ++ (id ++ after), (c == ',') = false := by
    intro c hc
    rw [beq_eq_false_iff_ne]
    rintro rfl
    exact not_mem_padded (by decide) hid.no_comma hbefore hafter hc
  induction h with
  | one hid hbefore hafter =>
    rw [splitWhere_eq_singleton (hpiece hid hbefore hafter), List.map_singleton,
      hid.isTrimmed.trim_append hid.ne_nil hbefore hafter]
  | more hid hbefore hafter _ ih =>
    rw [splitWhere_append_cons (hpiece hid hbefore hafter) rfl, List.map_cons, ih,
      hid.isTrimmed.trim_append hid.ne_nil hbefore hafter]

theorem splitRules_of_listsRules {ids : List (List Char)} {list : List Char}
    (h : ListsRules ids list) : splitRules list = ids := by
  rw [splitRules, h.map_trim_splitWhere, List.filter_eq_self]
  simpa using h.ne_nil_of_mem

/-! ## Reasons -/

/-- The reason of a directive of the first form, as it is written. -/
def quotedReason : Option (List Char) → List Char
  | none => []
  | some reason => " reason=\"".toList ++ (reason ++ ['"'])

/-- The reason of a directive of the second form, as it is written. -/
def remarkAfter : Option (List Char) → List Char
  | none => []
  | some reason => ": ".toList ++ reason

theorem isRemarkEnd_quotedReason (reason : Option (List Char)) :
    IsRemarkEnd (')' :: quotedReason reason) := by
  cases reason with
  | none => exact isRemarkEnd_singleton (by decide) (by decide)
  | some s =>
    have hquote : IsRemarkEnd ['"'] := isRemarkEnd_singleton (by decide) (by decide)
    exact (hquote.append s).append ") reason=\"".toList

theorem isRemarkEnd_remarkAfter {reason : Option (List Char)} (h : ∀ s ∈ reason, IsRemark s) :
    IsRemarkEnd (')' :: remarkAfter reason) := by
  cases reason with
  | none => exact isRemarkEnd_singleton (by decide) (by decide)
  | some s => exact (h s rfl).isRemarkEnd.append "):".toList

theorem parseReason_quotedReason {reason : Option (List Char)} (h : ∀ s ∈ reason, '"' ∉ s) :
    parseReason (trim (quotedReason reason)) = reason := by
  cases reason with
  | none => rfl
  | some s =>
    have hquote : IsRemarkEnd (s ++ ['"']) :=
      (isRemarkEnd_singleton (by decide) (by decide)).append s
    have hvalue := hquote.isRemark '"' (by decide)
    have hwhole := (hquote.append "eason=\"".toList).isRemark 'r' (by decide)
    have htrim : trim (quotedReason (some s)) = "reason=".toList ++ '"' :: (s ++ ['"']) := by
      show trim (' ' :: 'r' :: ("eason=\"".toList ++ (s ++ ['"']))) = _
      rw [trim_space, hwhole.isTrimmed.trim_eq hwhole.ne_nil]
      rfl
    have hsplit : splitFirst ['"'] (s ++ ['"']) = some (s, []) :=
      splitFirst_of_not_mem (h s rfl) []
    rw [htrim]
    show (['"'].isPrefixOf? (trim ('"' :: (s ++ ['"'])))).bind _ = some s
    rw [hvalue.isTrimmed.trim_eq hvalue.ne_nil]
    show (splitFirst ['"'] (s ++ ['"'])).bind _ = some s
    rw [hsplit]
    rfl

theorem trailingReason_remarkAfter {reason : Option (List Char)} (h : ∀ s ∈ reason, IsRemark s) :
    trailingReason (remarkAfter reason) = reason := by
  cases reason with
  | none => rfl
  | some s =>
    have hremark := h s rfl
    have hwhole := hremark.isRemarkEnd.isRemark ':' (by decide)
    have htrim : trim (remarkAfter (some s)) = remarkAfter (some s) :=
      hwhole.isTrimmed.trim_eq hwhole.ne_nil
    have hreason : trim (' ' :: s) = s := by
      rw [trim_space, hremark.isTrimmed.trim_eq hremark.ne_nil]
    rw [trailingReason, htrim]
    show (if trim (' ' :: s) = [] then none else some (trim (' ' :: s))) = some s
    rw [hreason, if_neg hremark.ne_nil]

/-! ## The second form -/

/-- The word that begins a directive for its own line or for the next one. -/
def nolint (isNext : Bool) : List Char :=
  if isNext then "NOLINTNEXTLINE".toList else "NOLINT".toList

def nolintReach (isNext : Bool) : Reach := if isNext then .nextLine else .sameLine

theorem isRemark_nolint (isNext : Bool) : IsRemark (nolint isNext) := by
  cases isNext <;> exact ⟨by decide, by decide, by decide⟩

theorem isRemark_nolint_append (isNext : Bool) {cs : List Char} (h : IsRemarkEnd cs) :
    IsRemark (nolint isNext ++ cs) := by
  cases isNext with
  | false => exact (h.append "OLINT".toList).isRemark 'N' (by decide)
  | true => exact (h.append "OLINTNEXTLINE".toList).isRemark 'N' (by decide)

-- What follows the word is not taken for a part of it.
theorem parseNolint_append (isNext : Bool) {rest : List Char}
    (h : rest.head? ∈ [none, some '(', some ':']) :
    parseNolint (nolint isNext ++ rest) = parseList (nolintReach isNext) rest := by
  cases isNext with
  | true => rfl
  | false =>
    cases rest with
    | nil => rfl
    | cons c rest =>
      obtain rfl | rfl : c = '(' ∨ c = ':' := by simpa using h
      · rfl
      · rfl

theorem parse_nolint {front rest : List Char} (hfront : HasNoMark front) (isNext : Bool)
    (hremark : IsRemark (nolint isNext ++ rest)) (h : rest.head? ∈ [none, some '(', some ':']) :
    parse (front ++ ("// ".toList ++ (nolint isNext ++ rest))) =
      parseList (nolintReach isNext) rest := by
  have hother : "width-lint:".toList.isPrefixOf? (nolint isNext ++ rest) = none := by
    cases isNext <;> rfl
  rw [← parseNolint_append isNext h, parse, commentText_append hfront hremark,
    Option.bind_eq_bind, Option.bind_some, hother]

theorem parseList_of_not_mem (reach : Reach) {list : List Char} (h : ')' ∉ list)
    (after : List Char) : parseList reach ('(' :: (list ++ ')' :: after)) =
      some ⟨splitRules list, trailingReason after, reach⟩ := by
  rw [parseList, splitParen, splitFirst_of_not_mem h]
  rfl

theorem parse_listed {front list : List Char} (hfront : HasNoMark front) (isNext : Bool)
    (hlist : ')' ∉ list) {reason : Option (List Char)} (hreason : ∀ s ∈ reason, IsRemark s) :
    parse (front ++ ("// ".toList ++ (nolint isNext ++ '(' :: (list ++ ')' :: remarkAfter reason))))
      = some ⟨splitRules list, reason, nolintReach isNext⟩ := by
  have hremark : IsRemark (nolint isNext ++ '(' :: (list ++ ')' :: remarkAfter reason)) :=
    isRemark_nolint_append isNext ((isRemarkEnd_remarkAfter hreason).append ('(' :: list))
  rw [parse_nolint hfront isNext hremark (by simp), parseList_of_not_mem _ hlist,
    trailingReason_remarkAfter hreason]

theorem parse_bare {front : List Char} (hfront : HasNoMark front) (isNext : Bool)
    {reason : Option (List Char)} (hreason : ∀ s ∈ reason, IsRemark s) :
    parse (front ++ ("// ".toList ++ (nolint isNext ++ remarkAfter reason))) =
      some ⟨[], reason, nolintReach isNext⟩ := by
  have hremark : IsRemark (nolint isNext ++ remarkAfter reason) := by
    cases reason with
    | none => exact (List.append_nil _).symm ▸ isRemark_nolint isNext
    | some s => exact isRemark_nolint_append isNext ((hreason s rfl).isRemarkEnd.append [':'])
  have hlist : parseList (nolintReach isNext) (remarkAfter reason) =
      some ⟨[], trailingReason (remarkAfter reason), nolintReach isNext⟩ := by
    cases reason <;> rfl
  rw [parse_nolint hfront isNext hremark (by cases reason <;> simp [remarkAfter]), hlist,
    trailingReason_remarkAfter hreason]

/-! ## The first form -/

theorem IsRemarkEnd.trim_append {cs : List Char} (h : IsRemarkEnd cs)
    (hfirst : ∀ c ∈ cs.head?, isBlank c = false) (front : List Char) :
    trim (front ++ cs) = trimLeft front ++ cs := by
  have hkept : trimLeft cs = cs := by
    have hpadded := trimLeft_append h.ne_nil hfirst (List.forall_mem_nil _) []
    rwa [List.nil_append, List.append_nil] at hpadded
  have hleft : trimLeft (front ++ cs) = trimLeft front ++ cs := by
    rw [trimLeft, List.dropWhile_append]
    split
    · rename_i hnone
      rw [trimLeft, List.isEmpty_iff.mp hnone, List.nil_append]
      exact hkept
    · rfl
  have hend := h.append (trimLeft front)
  have hright := trimRight_append hend.ne_nil hend.last_not_isBlank (List.forall_mem_nil _)
  rw [List.append_nil] at hright
  rw [trim, hleft, hright]

theorem splitRules_trimLeft (list : List Char) : splitRules (trimLeft list) = splitRules list := by
  have hblank (c : Char) (hc : isBlank c = true) : (c == ',') = false := by
    rw [beq_eq_false_iff_ne]
    rintro rfl
    exact absurd hc (by decide)
  rw [splitRules, map_trim_splitWhere_trimLeft hblank, ← splitRules]

theorem parseAllow_of_listsRules {list : List Char} {ids : List (List Char)}
    (hlist : ListsRules ids list) {reason : Option (List Char)} (hreason : ∀ s ∈ reason, '"' ∉ s) :
    parseAllow ("allow(".toList ++ (list ++ ')' :: quotedReason reason)) =
      some ⟨ids, reason, .sameAndNextLine⟩ := by
  have hparen : ')' ∉ trimLeft list := fun hmem =>
    hlist.no_paren ((List.dropWhile_suffix isBlank).mem hmem)
  have hsplit : splitParen (trim (list ++ ')' :: quotedReason reason)) =
      some (trimLeft list, quotedReason reason) := by
    rw [(isRemarkEnd_quotedReason reason).trim_append (by simp; decide)]
    exact splitFirst_of_not_mem hparen _
  have hrules : splitRules (trimLeft list) = ids := by
    rw [splitRules_trimLeft, splitRules_of_listsRules hlist]
  show (splitParen (trim (list ++ ')' :: quotedReason reason))).bind _ = _
  rw [hsplit]
  show (if splitRules (trimLeft list) = [] then none else some (Directive.mk
    (splitRules (trimLeft list)) (parseReason (trim (quotedReason reason))) .sameAndNextLine)) = _
  rw [hrules, if_neg hlist.ne_nil, parseReason_quotedReason hreason]

theorem parse_allow {front list : List Char} (hfront : HasNoMark front)
    {ids : List (List Char)} (hlist : ListsRules ids list) {reason : Option (List Char)}
    (hreason : ∀ s ∈ reason, '"' ∉ s) :
    parse (front ++ ("// ".toList ++
      ("width-lint: allow(".toList ++ (list ++ ')' :: quotedReason reason)))) =
        some ⟨ids, reason, .sameAndNextLine⟩ := by
  have hend := (isRemarkEnd_quotedReason reason).append list
  have hbody : IsRemark ("width-lint: allow(".toList ++ (list ++ ')' :: quotedReason reason)) :=
    (hend.append "idth-lint: allow(".toList).isRemark 'w' (by decide)
  have hdirective := (hend.append "llow(".toList).isRemark 'a' (by decide)
  rw [parse, commentText_append hfront hbody]
  show parseAllow (trim (' ' :: 'a' :: ("llow(".toList ++
    (list ++ ')' :: quotedReason reason)))) = _
  rw [trim_space, hdirective.isTrimmed.trim_eq hdirective.ne_nil]
  exact parseAllow_of_listsRules hlist hreason

/-! ## The written forms -/

/-- The texts a directive is written as, with and without a list and a reason. -/
inductive Spells : Directive → List Char → Prop
  | allow {ids : List (List Char)} {list : List Char} {reason : Option (List Char)}
      (hlist : ListsRules ids list) (hreason : ∀ s ∈ reason, '"' ∉ s) :
      Spells ⟨ids, reason, .sameAndNextLine⟩
        ("// ".toList ++ ("width-lint: allow(".toList ++ (list ++ ')' :: quotedReason reason)))
  | listed (isNext : Bool) {ids : List (List Char)} {list : List Char}
      {reason : Option (List Char)} (hlist : ListsRules ids list)
      (hreason : ∀ s ∈ reason, IsRemark s) :
      Spells ⟨ids, reason, nolintReach isNext⟩
        ("// ".toList ++ (nolint isNext ++ '(' :: (list ++ ')' :: remarkAfter reason)))
  | bare (isNext : Bool) {reason : Option (List Char)} (hreason : ∀ s ∈ reason, IsRemark s) :
      Spells ⟨[], reason, nolintReach isNext⟩
        ("// ".toList ++ (nolint isNext ++ remarkAfter reason))

theorem parse_of_spells {front text : List Char} {d : Directive} (hfront : HasNoMark front)
    (h : Spells d text) : parse (front ++ text) = some d := by
  cases h with
  | allow hlist hreason => exact parse_allow hfront hlist hreason
  | listed isNext hlist hreason =>
    rw [parse_listed hfront isNext hlist.no_paren hreason, splitRules_of_listsRules hlist]
  | bare isNext hreason => exact parse_bare hfront isNext hreason

end WidthCheck.Directive
