import Mathlib.Data.List.Basic
import WidthCheck.Proofs.Text.Words

/-!
# The text of printed types

What a printed type is made of, as text: names and bounds, the gaps between them and the signs of
pointers and references, and brackets that open and close. Each part can be told from what follows
it, so that a text is put together from its parts in one way only.
-/

namespace WidthCheck.Printed

/-! ## Names and bounds -/

/-- The characters around the words of a printed type. -/
def punctuation : List Char := [' ', ':', '*', '&', '(', ')', '[', ']']

/-- One or more characters that are no punctuation, such as an identifier or a number. -/
def IsToken (cs : List Char) : Prop := cs ≠ [] ∧ ∀ c ∈ cs, c ∉ punctuation

instance (cs : List Char) : Decidable (IsToken cs) := inferInstanceAs (Decidable (_ ∧ _))

/-- A word of a name: any but the two that are printed for qualifiers. -/
def IsNameWord (cs : List Char) : Prop :=
  IsToken cs ∧ cs ≠ "const".toList ∧ cs ≠ "volatile".toList

instance (cs : List Char) : Decidable (IsNameWord cs) := inferInstanceAs (Decidable (_ ∧ _ ∧ _))

/-- One or more words, with a single space or `::` between two of them. -/
inductive IsName : List Char → Prop
  | word {w : List Char} (hw : IsNameWord w) : IsName w
  | more {w sep rest : List Char} (hw : IsNameWord w) (hsep : sep ∈ [[' '], [':', ':']])
      (hrest : IsName rest) : IsName (w ++ (sep ++ rest))

/-- The punctuation that stands outside of names. -/
def brackets : List Char := ['*', '&', '(', ')', '[', ']']

theorem IsToken.not_mem_brackets {cs : List Char} (h : IsToken cs) : ∀ c ∈ cs, c ∉ brackets :=
  fun c hc hmem => h.2 c hc (List.mem_cons_of_mem _ (List.mem_cons_of_mem _ hmem))

theorem IsName.not_mem_brackets {cs : List Char} (h : IsName cs) : ∀ c ∈ cs, c ∉ brackets := by
  induction h with
  | word hw => exact hw.1.not_mem_brackets
  | @more w sep rest hw hsep _ ih =>
    have hall : ∀ sep ∈ [[' '], [':', ':']], ∀ c ∈ sep, c ∉ brackets := by decide
    rw [List.forall_mem_append, List.forall_mem_append]
    exact ⟨hw.1.not_mem_brackets, hall sep hsep, ih⟩

/-- What stands before the first punctuation. -/
def firstWord (cs : List Char) : List Char := cs.takeWhile (!punctuation.contains ·)

theorem IsToken.firstWord_append {w : List Char} (h : IsToken w) (rest : List Char) :
    firstWord (w ++ rest) = w ++ firstWord rest := by
  apply List.takeWhile_append_of_pos
  simpa using h.2

theorem IsName.isNameWord_firstWord {cs : List Char} (h : IsName cs) :
    IsNameWord (firstWord cs) := by
  cases h with
  | word hw =>
    rw [← List.append_nil cs, hw.1.firstWord_append, show firstWord [] = [] from rfl,
      List.append_nil]
    exact hw
  | @more w sep rest hw hsep _ =>
    have hnone : firstWord (sep ++ rest) = [] := by
      simp only [List.mem_cons, List.not_mem_nil, or_false] at hsep
      rcases hsep with rfl | rfl <;> rfl
    rw [hw.1.firstWord_append, hnone, List.append_nil]
    exact hw

theorem IsName.ne_qualifier_append {cs : List Char} (h : IsName cs) (rest : List Char) :
    cs ≠ "const".toList ++ ' ' :: rest ∧ cs ≠ "volatile".toList ++ ' ' :: rest := by
  constructor
  · rintro rfl
    exact h.isNameWord_firstWord.2.1 rfl
  · rintro rfl
    exact h.isNameWord_firstWord.2.2 rfl

/-- A keyword and the space after it, if it is there. -/
def keyword (isThere : Bool) (word : List Char) : List Char := if isThere then word ++ [' '] else []

-- Whether a keyword is there can be told, as long as the rest does not begin with it.
theorem keyword_append_injective {w x y : List Char} {b b' : Bool}
    (hx : ∀ rest, x ≠ w ++ ' ' :: rest) (hy : ∀ rest, y ≠ w ++ ' ' :: rest)
    (h : keyword b w ++ x = keyword b' w ++ y) : b = b' ∧ x = y := by
  cases b <;> cases b'
  · exact ⟨rfl, h⟩
  · exact absurd (h.trans (by simp [keyword])) (hx y)
  · exact absurd (h.symm.trans (by simp [keyword])) (hy x)
  · exact ⟨rfl, List.append_cancel_left h⟩

/-! ## Gaps -/

/-- The text has a last character, which is neither a space nor an opening parenthesis. A gap after
it can be told from it. -/
def IsSolid (cs : List Char) : Prop :=
  cs ≠ [] ∧ cs.getLast? ≠ some ' ' ∧ cs.getLast? ≠ some '('

instance (cs : List Char) : Decidable (IsSolid cs) := inferInstanceAs (Decidable (_ ∧ _ ∧ _))

theorem IsSolid.append {cs : List Char} (h : IsSolid cs) (front : List Char) :
    IsSolid (front ++ cs) := by
  refine ⟨List.append_ne_nil_of_right_ne_nil front h.1, ?_⟩
  rw [List.getLast?_append_of_ne_nil front h.1]
  exact h.2

theorem IsToken.isSolid {cs : List Char} (h : IsToken cs) : IsSolid cs := by
  have hlast (c : Char) (hc : c ∈ punctuation) : cs.getLast? ≠ some c :=
    fun heq => h.2 c (List.mem_of_getLast? heq) hc
  exact ⟨h.1, hlast ' ' (by decide), hlast '(' (by decide)⟩

theorem IsName.isSolid {cs : List Char} (h : IsName cs) : IsSolid cs := by
  induction h with
  | word hw => exact hw.1.isSolid
  | @more w sep rest _ _ _ ih => exact (ih.append sep).append w

/-- What may stand after the left part of a type, before the sign around it or its right part. -/
def gaps : List (List Char) := [[], [' '], [' ', '(']]

/-- The gap at the end of a text, told by its last character. -/
def gapOf (last : Option Char) : List Char :=
  if last = some ' ' then [' '] else if last = some '(' then [' ', '('] else []

theorem IsSolid.gapOf_append {cs gap : List Char} (h : IsSolid cs) (hgap : gap ∈ gaps) :
    gapOf (cs ++ gap).getLast? = gap := by
  rw [List.getLast?_append]
  simp only [gaps, List.mem_cons, List.not_mem_nil, or_false] at hgap
  rcases hgap with rfl | rfl | rfl
  · rw [List.getLast?_nil, Option.none_or, gapOf, if_neg h.2.1, if_neg h.2.2]
  · rfl
  · rfl

theorem append_gap_injective {a b gap gap' : List Char} (ha : IsSolid a) (hb : IsSolid b)
    (hgap : gap ∈ gaps) (hgap' : gap' ∈ gaps) (h : a ++ gap = b ++ gap') : a = b ∧ gap = gap' := by
  have hsame : gap = gap' := by
    rw [← ha.gapOf_append hgap, h, hb.gapOf_append hgap']
  rw [hsame] at h
  exact ⟨List.append_cancel_right h, hsame⟩

/-! ## Signs -/

def isSign (c : Char) : Bool := c == '*' || c == '&'

theorem isSign_eq_false {c : Char} (h : c ∉ brackets) : isSign c = false := by
  simp only [brackets, List.mem_cons, not_or] at h
  simp [isSign, h.1, h.2.1]

-- A text around the first of its characters with a property.
theorem append_first_injective {p : Char → Bool} {a b r s : List Char} {c d : Char}
    (hc : p c = true) (hd : p d = true) (ha : ∀ x ∈ a, p x = false) (hb : ∀ x ∈ b, p x = false)
    (h : a ++ c :: r = b ++ d :: s) : a = b ∧ c = d ∧ r = s := by
  have htake {x : List Char} {e : Char} {y : List Char} (he : p e = true)
      (hx : ∀ z ∈ x, p z = false) : (x ++ e :: y).takeWhile (!p ·) = x := by
    rw [List.takeWhile_append_of_pos (by simpa using hx)]
    simp [he]
  have hab : a = b := by
    rw [← htake hc ha, h, htake hd hb]
  subst hab
  obtain ⟨hcd, hrs⟩ := List.cons.inj (List.append_cancel_left h)
  exact ⟨rfl, hcd, hrs⟩

-- A text around the last of them: the same, read backwards.
theorem append_last_injective {p : Char → Bool} {a b r s : List Char} {c d : Char}
    (hc : p c = true) (hd : p d = true) (hr : ∀ x ∈ r, p x = false) (hs : ∀ x ∈ s, p x = false)
    (h : a ++ c :: r = b ++ d :: s) : a = b ∧ c = d ∧ r = s := by
  have hreverse : r.reverse ++ c :: a.reverse = s.reverse ++ d :: b.reverse := by
    simpa using congrArg List.reverse h
  obtain ⟨hrs, hcd, hab⟩ := append_first_injective hc hd
    (fun x hx => hr x (List.mem_reverse.mp hx)) (fun x hx => hs x (List.mem_reverse.mp hx)) hreverse
  exact ⟨List.reverse_inj.mp hab, hcd, List.reverse_inj.mp hrs⟩

/-! ## Brackets -/

/-- Whether a text begins with a pointer or reference sign. -/
def beginsWithSign (cs : List Char) : Bool := cs.head?.any isSign

/-- Whether a text has no array and no bracket that closes, and every parenthesis in it opens before
a sign. -/
def isOpening : List Char → Bool
  | [] => true
  | c :: cs => (c != ')' && c != '[' && (c != '(' || beginsWithSign cs)) && isOpening cs

/-- Whether a text is empty or begins with a bracket that closes, an array or a function. -/
def isClosing : List Char → Bool
  | [] => true
  | c :: cs => c == ')' || c == '[' || (c == '(' && cs.head? == some ')')

theorem isOpening_cons_iff {c : Char} {cs : List Char} :
    isOpening (c :: cs) = true ↔
      c ≠ ')' ∧ c ≠ '[' ∧ (c = '(' → beginsWithSign cs = true) ∧ isOpening cs = true := by
  by_cases hc : c = '('
  · simp [isOpening, hc]
  · simp [isOpening, hc, and_assoc]

theorem isOpening_append {a b : List Char} (ha : isOpening a = true) (hb : isOpening b = true) :
    isOpening (a ++ b) = true := by
  induction a with
  | nil => exact hb
  | cons c a ih =>
    obtain ⟨hparen, hbracket, hsign, hrest⟩ := isOpening_cons_iff.mp ha
    refine isOpening_cons_iff.mpr ⟨hparen, hbracket, fun hc => ?_, ih hrest⟩
    cases a with
    | nil => cases hsign hc
    | cons d a => exact hsign hc

theorem isOpening_of_not_mem_brackets {cs : List Char} (h : ∀ c ∈ cs, c ∉ brackets) :
    isOpening cs = true := by
  induction cs with
  | nil => rfl
  | cons c cs ih =>
    obtain ⟨hc, hcs⟩ := List.forall_mem_cons.mp h
    have hne (d : Char) (hd : d ∈ brackets) : c ≠ d := fun heq => hc (heq ▸ hd)
    refine isOpening_cons_iff.mpr ⟨hne _ (by decide), hne _ (by decide), ?_, ih hcs⟩
    exact fun heq => absurd heq (hne '(' (by decide))

theorem isClosing_eq_false {c : Char} {cs : List Char} (h : isOpening (c :: cs) = true)
    (rest : List Char) : isClosing (c :: cs ++ rest) = false := by
  obtain ⟨hparen, hbracket, hsign, -⟩ := isOpening_cons_iff.mp h
  by_cases hc : c = '('
  · subst hc
    cases cs with
    | nil => cases hsign rfl
    | cons d cs =>
      have hd : d ≠ ')' := by
        rintro rfl
        cases hsign rfl
      simp [isClosing, hd]
  · simp [isClosing, hparen, hbracket, hc]

-- A text opens up to the place where it closes.
theorem append_closing_injective {a b r s : List Char} (ha : isOpening a = true)
    (hb : isOpening b = true) (hr : isClosing r = true) (hs : isClosing s = true)
    (h : a ++ r = b ++ s) : a = b ∧ r = s := by
  induction a generalizing b with
  | nil =>
    cases b with
    | nil => exact ⟨rfl, h⟩
    | cons c b =>
      rw [show r = c :: b ++ s from h, isClosing_eq_false hb s] at hr
      cases hr
  | cons c a ih =>
    cases b with
    | nil =>
      rw [show s = c :: a ++ r from h.symm, isClosing_eq_false ha r] at hs
      cases hs
    | cons d b =>
      obtain ⟨rfl, hrest⟩ := List.cons.inj h
      obtain ⟨rfl, hright⟩ :=
        ih (isOpening_cons_iff.mp ha).2.2.2 (isOpening_cons_iff.mp hb).2.2.2 hrest
      exact ⟨rfl, hright⟩

end WidthCheck.Printed
