import WidthCheck.CType.Print
import WidthCheck.Proofs.CType.PrintedText
import WidthCheck.Proofs.CType.Substitution

/-!
# Reading printed types

The printed form of a type determines the type. It is taken apart from the outside: the part to the
left of the declarator opens, the part to the right closes. The right part begins with the outermost
array or function; without one, the last sign of the left part is that of the outermost pointer or
reference.
-/

namespace WidthCheck

open Printed

/-! ## Qualifiers and signs -/

namespace Quals

instance decidableForall (p : Quals → Prop) [DecidablePred p] : Decidable (∀ q, p q) :=
  decidable_of_iff (∀ isConst isVolatile, p ⟨isConst, isVolatile⟩)
    ⟨fun h q => h q.isConst q.isVolatile, fun h _ _ => h _⟩

theorem spelling_injective : ∀ q r : Quals, q.spelling = r.spelling → q = r := by decide

theorem isSign_spelling : ∀ q : Quals, ∀ c ∈ q.spelling, isSign c = false := by decide

/-- The qualifiers of a base, with a space after each. -/
def front (q : Quals) : List Char :=
  keyword q.isConst "const".toList ++ keyword q.isVolatile "volatile".toList

theorem front_not_mem_brackets : ∀ q : Quals, ∀ c ∈ q.front, c ∉ brackets := by decide

theorem front_eq : ∀ q : Quals,
    q.front = if q.isEmpty then [] else q.spelling ++ [' '] := by decide

theorem front_append_injective {q r : Quals} {a b : List Char} (ha : IsName a) (hb : IsName b)
    (h : q.front ++ a = r.front ++ b) : q = r ∧ a = b := by
  have hconst {isVolatile : Bool} {name : List Char} (hname : IsName name) (rest : List Char) :
      keyword isVolatile "volatile".toList ++ name ≠ "const".toList ++ ' ' :: rest := by
    cases isVolatile
    · exact (hname.ne_qualifier_append rest).1
    · exact fun heq => absurd (List.cons.inj heq).1 (by decide)
  rw [front, front, List.append_assoc, List.append_assoc] at h
  obtain ⟨hisConst, hrest⟩ := keyword_append_injective (hconst ha) (hconst hb) h
  obtain ⟨hisVolatile, hname⟩ :=
    keyword_append_injective (fun rest => (ha.ne_qualifier_append rest).2)
      (fun rest => (hb.ne_qualifier_append rest).2) hrest
  refine ⟨?_, hname⟩
  cases q
  cases r
  rw [Quals.mk.injEq]
  exact ⟨hisConst, hisVolatile⟩

end Quals

/-- What is printed for the outermost layer of a type: a name, a sign, a bound or parentheses. -/
inductive PrintShape where
  | name
  | sign
  | array
  | function
deriving DecidableEq

namespace Layer

def shape : Layer → PrintShape
  | .pointer | .lvalueRef | .rvalueRef => .sign
  | .array _ => .array
  | .function => .function

/-- The sign of a layer before its last character. -/
def signFront : Layer → List Char
  | .rvalueRef => ['&']
  | _ => []

def signLast : Layer → Char
  | .pointer => '*'
  | _ => '&'

/-- What is printed for a pointer or a reference. -/
def sign (l : Layer) (q : Quals) : List Char := l.signFront ++ l.signLast :: q.spelling

theorem isSign_signLast (l : Layer) : isSign l.signLast = true := by
  cases l <;> rfl

theorem isSolid_sign {l : Layer} (hl : l.shape = .sign) (q : Quals) : IsSolid (l.sign q) := by
  cases l with
  | pointer | lvalueRef | rvalueRef => revert q; decide
  | array bound | function => cases hl

theorem isOpening_gap_sign {l : Layer} (hl : l.shape = .sign) (q : Quals) {gap : List Char}
    (hgap : gap ∈ gaps) : isOpening (gap ++ l.sign q) = true := by
  cases l with
  | pointer | lvalueRef | rvalueRef => revert q gap; decide
  | array bound | function => cases hl

/-- The layer of a sign, told from its last character and what stands before it. -/
def ofSign (front : List Char) (last : Char) : Layer :=
  if last = '*' then .pointer
  else if front.getLast? = some '&' then .rvalueRef else .lvalueRef

-- One ampersand is not the second half of two if there is none before it.
theorem ofSign_eq {l : Layer} (hl : l.shape = .sign) {a : List Char}
    (ha : l.isReference = true → a.getLast? ≠ some '&') :
    ofSign (a ++ l.signFront) l.signLast = l := by
  cases l with
  | pointer => rfl
  | lvalueRef =>
    rw [show a ++ signFront .lvalueRef = a from List.append_nil a, ofSign, if_neg (by decide),
      if_neg (ha rfl)]
  | rvalueRef =>
    rw [show a ++ signFront .rvalueRef = a ++ ['&'] from rfl, ofSign, if_neg (by decide),
      if_pos List.getLast?_concat]
  | array bound | function => cases hl

theorem append_sign_injective {l l' : Layer} {q r : Quals} {a b : List Char}
    (hl : l.shape = .sign) (hl' : l'.shape = .sign)
    (ha : l.isReference = true → a.getLast? ≠ some '&')
    (hb : l'.isReference = true → b.getLast? ≠ some '&') (h : a ++ l.sign q = b ++ l'.sign r) :
    a = b ∧ l = l' ∧ q = r := by
  rw [sign, sign, ← List.append_assoc, ← List.append_assoc] at h
  obtain ⟨hfront, hlast, hspelling⟩ := append_last_injective l.isSign_signLast l'.isSign_signLast
    q.isSign_spelling r.isSign_spelling h
  have hlayer : l = l' := by
    rw [← ofSign_eq hl ha, hfront, hlast, ofSign_eq hl' hb]
  subst hlayer
  exact ⟨List.append_cancel_right hfront, rfl, Quals.spelling_injective q r hspelling⟩

end Layer

namespace QualType

/-! ## The parts of a printed type -/

-- The four ways in which a type is printed.
@[elab_as_elim]
theorem printInduction {motive : QualType → Prop}
    (base : ∀ kind name q, motive (.base kind name q))
    (sign : ∀ l inner q, l.shape = .sign → motive inner → motive (.layer l inner q))
    (array : ∀ bound inner q, motive inner → motive (.layer (.array bound) inner q))
    (function : ∀ inner q, motive inner → motive (.layer .function inner q))
    (t : QualType) : motive t := by
  induction t with
  | base kind name q => exact base kind name q
  | layer l inner q ih =>
    cases l with
    | pointer => exact sign .pointer inner q rfl ih
    | lvalueRef => exact sign .lvalueRef inner q rfl ih
    | rvalueRef => exact sign .rvalueRef inner q rfl ih
    | array bound => exact array bound inner q ih
    | function => exact function inner q ih

theorem printParts_base (kind : BaseKind) (name : String) (q : Quals) :
    (base kind name q).printParts = (q.front ++ name.toList, []) := by
  rw [printParts, Quals.front_eq]
  cases q.isEmpty <;> simp

/-- What stands between the left part of a type and a sign around it. -/
def gap (below : QualType) : List Char :=
  if below.bindsTighter then [' ', '(']
  else if endsInSign below.printParts.1 then [] else [' ']

theorem printParts_sign {l : Layer} (hl : l.shape = .sign) (t : QualType) (q : Quals) :
    (layer l t q).printParts =
      (t.printParts.1 ++ t.gap ++ l.sign q,
        (if t.bindsTighter then [')'] else []) ++ t.printParts.2) := by
  have hprint : (layer l t q).printParts =
      printSign t (l.signFront ++ [l.signLast]) q.spelling t.printParts := by
    cases l with
    | pointer | lvalueRef | rvalueRef => rfl
    | array bound | function => cases hl
  rw [hprint, printSign, gap, Layer.sign]
  split
  · simp
  split <;> simp

theorem gap_mem_gaps (t : QualType) : t.gap ∈ gaps := by
  unfold gap
  split
  · decide
  split <;> decide

theorem bindsTighter_eq_of_gap_eq {t u : QualType} (h : t.gap = u.gap) :
    t.bindsTighter = u.bindsTighter := by
  have hiff (t : QualType) : t.bindsTighter = true ↔ t.gap = [' ', '('] := by
    unfold gap
    split
    · simp [*]
    split <;> simp [*]
  rw [Bool.eq_iff_iff, hiff, hiff, h]

/-- Names and bounds can be told from what is printed around them, and arrays are unqualified. -/
def IsLegible : QualType → Prop
  | .base _ name _ => IsName name.toList
  | .layer l inner quals => inner.IsLegible ∧
      ∀ bound, l = .array bound → quals = .none ∧ ∀ text ∈ bound, IsToken text.toList

theorem left_base_not_mem_brackets {kind : BaseKind} {name : String} (h : IsName name.toList)
    (q : Quals) : ∀ c ∈ (base kind name q).printParts.1, c ∉ brackets := by
  rw [printParts_base, List.forall_mem_append]
  exact ⟨q.front_not_mem_brackets, h.not_mem_brackets⟩

theorem isSolid_left {t : QualType} (ht : t.IsLegible) : IsSolid t.printParts.1 := by
  induction t using printInduction with
  | base kind name q =>
    rw [printParts_base]
    exact (IsName.isSolid ht).append _
  | sign l inner q hl ih =>
    rw [printParts_sign hl]
    exact (Layer.isSolid_sign hl q).append _
  | array bound inner q ih => exact ih ht.1
  | function inner q ih => exact ih ht.1

theorem isOpening_left {t : QualType} (ht : t.IsLegible) : isOpening t.printParts.1 = true := by
  induction t using printInduction with
  | base kind name q =>
    exact isOpening_of_not_mem_brackets (left_base_not_mem_brackets ht q)
  | sign l inner q hl ih =>
    rw [printParts_sign hl, List.append_assoc]
    exact isOpening_append (ih ht.1) (Layer.isOpening_gap_sign hl q inner.gap_mem_gaps)
  | array bound inner q ih => exact ih ht.1
  | function inner q ih => exact ih ht.1

theorem isClosing_right (t : QualType) : isClosing t.printParts.2 = true := by
  induction t using printInduction with
  | base kind name q => rfl
  | sign l inner q hl ih =>
    rw [printParts_sign hl]
    split
    · rfl
    · exact ih
  | array bound inner q ih => rfl
  | function inner q ih => rfl

theorem exists_print_eq (t : QualType) :
    ∃ gap ∈ gaps, isOpening gap = true ∧
      t.print = t.printParts.1 ++ gap ++ t.printParts.2 := by
  unfold print joinParts
  split
  · exact ⟨[], by decide, rfl, by simp [*]⟩
  split
  · split
    · exact ⟨[], by decide, rfl, by simp [*]⟩
    · exact ⟨[' '], by decide, rfl, by simp [*]⟩
  · exact ⟨[], by decide, rfl, by simp [*]⟩

theorem printParts_eq_of_print_eq {t u : QualType} (ht : t.IsLegible) (hu : u.IsLegible)
    (h : t.print = u.print) : t.printParts = u.printParts := by
  obtain ⟨gap, hgap, hopening, hprint⟩ := t.exists_print_eq
  obtain ⟨gap', hgap', hopening', hprint'⟩ := u.exists_print_eq
  rw [hprint, hprint'] at h
  obtain ⟨hfront, hright⟩ := append_closing_injective
    (isOpening_append (isOpening_left ht) hopening)
    (isOpening_append (isOpening_left hu) hopening') t.isClosing_right u.isClosing_right h
  have hleft := (append_gap_injective (isSolid_left ht) (isSolid_left hu) hgap hgap' hfront).1
  exact Prod.ext hleft hright

/-! ## The outermost layer -/

def shape : QualType → PrintShape
  | .base _ _ _ => .name
  | .layer l _ _ => l.shape

/-- The outermost layer, told from the two parts. -/
def shapeOf (parts : List Char × List Char) : PrintShape :=
  if parts.2.head? = some '[' then .array
  else if parts.2.head? = some '(' then .function
  else if parts.1.any isSign then .sign else .name

theorem head?_right_of_not_bindsTighter {t : QualType} (h : t.bindsTighter = false) :
    t.printParts.2.head? ≠ some '[' ∧ t.printParts.2.head? ≠ some '(' := by
  induction t using printInduction with
  | base kind name q => exact ⟨nofun, nofun⟩
  | sign l inner q hl ih =>
    rw [printParts_sign hl]
    cases hinner : inner.bindsTighter with
    | true => exact ⟨by simp, by simp⟩
    | false => exact ih hinner
  | array bound inner q _ | function inner q _ => cases h

theorem shape_eq {t : QualType} (ht : t.IsLegible) : t.shape = shapeOf t.printParts := by
  cases t using printInduction with
  | base kind name q =>
    have hnone : ¬(base kind name q).printParts.1.any isSign = true := by
      simpa using fun c hc => isSign_eq_false (left_base_not_mem_brackets ht q c hc)
    rw [shapeOf, if_neg nofun, if_neg nofun, if_neg hnone]
    rfl
  | sign l inner q hl _ =>
    have hloose : (layer l inner q).bindsTighter = false := by
      cases l with
      | pointer | lvalueRef | rvalueRef => rfl
      | array bound | function => cases hl
    have hsome : (layer l inner q).printParts.1.any isSign = true := by
      rw [printParts_sign hl, Layer.sign]
      simp [l.isSign_signLast]
    obtain ⟨hbracket, hparen⟩ := head?_right_of_not_bindsTighter hloose
    rw [shapeOf, if_neg hbracket, if_neg hparen, if_pos hsome]
    exact hl
  | array bound inner q _ => rfl
  | function inner q _ => rfl

theorem shape_eq_of_printParts_eq {t u : QualType} (ht : t.IsLegible) (hu : u.IsLegible)
    (h : t.printParts = u.printParts) : t.shape = u.shape := by
  rw [shape_eq ht, shape_eq hu, h]

-- What a reference refers to does not end in an ampersand, nor does the gap after it.
theorem getLast?_left_gap_ne {t : QualType} (ht : t.IsLegible) (href : t.isReference = false) :
    (t.printParts.1 ++ t.gap).getLast? ≠ some '&' := by
  have hgap := t.gap_mem_gaps
  simp only [gaps, List.mem_cons, List.not_mem_nil, or_false] at hgap
  rcases hgap with hnone | hspace | hparen
  · rw [hnone, List.append_nil]
    cases t using printInduction with
    | base kind name q =>
      intro hlast
      exact left_base_not_mem_brackets ht q '&' (List.mem_of_getLast? hlast) (by decide)
    | sign l inner q hl _ =>
      cases l with
      | lvalueRef | rvalueRef => cases href
      | array bound | function => cases hl
      | pointer =>
        have hlast : ∀ q, (Layer.pointer.sign q).getLast? ≠ some '&' := by decide
        rw [printParts_sign hl, List.getLast?_append_of_ne_nil _ (Layer.isSolid_sign hl q).1]
        exact hlast q
    | array bound inner q _ | function inner q _ => cases hnone
  · rw [hspace, List.getLast?_concat]
    decide
  · rw [hparen, List.getLast?_append_of_ne_nil _ (by decide)]
    decide

/-! ## From the parts to the type -/

theorem printParts_sign_injective {l l' : Layer} {t u : QualType} {q r : Quals}
    (hl : l.shape = .sign) (hl' : l'.shape = .sign) (ht : (layer l t q).IsCollapsed)
    (hu : (layer l' u r).IsCollapsed) (ht' : t.IsLegible) (hu' : u.IsLegible)
    (h : (layer l t q).printParts = (layer l' u r).printParts) :
    l = l' ∧ q = r ∧ t.printParts = u.printParts := by
  rw [printParts_sign hl, printParts_sign hl'] at h
  obtain ⟨hleft, hright⟩ := Prod.mk.inj h
  obtain ⟨hfront, hlayer, hquals⟩ := Layer.append_sign_injective hl hl'
    (fun href => getLast?_left_gap_ne ht' (ht.2.1 href))
    (fun href => getLast?_left_gap_ne hu' (hu.2.1 href)) hleft
  obtain ⟨hparts, hgap⟩ := append_gap_injective (isSolid_left ht') (isSolid_left hu')
    t.gap_mem_gaps u.gap_mem_gaps hfront
  rw [bindsTighter_eq_of_gap_eq hgap] at hright
  exact ⟨hlayer, hquals, Prod.ext hparts (List.append_cancel_left hright)⟩

theorem bound_getD_injective {bound bound' : Option String}
    (hbound : ∀ text ∈ bound, IsToken text.toList)
    (hbound' : ∀ text ∈ bound', IsToken text.toList)
    (h : (bound.getD "").toList = (bound'.getD "").toList) : bound = bound' := by
  cases bound with
  | none =>
    cases bound' with
    | none => rfl
    | some text => exact absurd h.symm (hbound' text rfl).1
  | some text =>
    cases bound' with
    | none => exact absurd h (hbound text rfl).1
    | some text' => exact congrArg some (String.toList_inj.mp h)

theorem printParts_array_injective {bound bound' : Option String} {t u : QualType} {q r : Quals}
    (hbound : ∀ text ∈ bound, IsToken text.toList)
    (hbound' : ∀ text ∈ bound', IsToken text.toList)
    (h : (layer (.array bound) t q).printParts = (layer (.array bound') u r).printParts) :
    bound = bound' ∧ t.printParts = u.printParts := by
  have hopen {b : Option String} (hb : ∀ text ∈ b, IsToken text.toList) :
      ∀ c ∈ (b.getD "").toList, (c == ']') = false := by
    cases b with
    | none => simp
    | some text =>
      intro c hc
      rw [beq_eq_false_iff_ne]
      rintro rfl
      exact (hb text rfl).2 ']' hc (by decide)
  obtain ⟨hleft, hright⟩ := Prod.mk.inj h
  obtain ⟨htexts, -, hrest⟩ := append_first_injective (p := (· == ']')) rfl rfl (hopen hbound)
    (hopen hbound') (List.cons.inj hright).2
  exact ⟨bound_getD_injective hbound hbound' htexts, Prod.ext hleft hrest⟩

/-- What the name at the bottom of a type stands for. -/
def baseKind : QualType → BaseKind
  | .base kind _ _ => kind
  | .layer _ inner _ => inner.baseKind

theorem eq_of_printParts_eq {t u : QualType} (ht : t.IsCollapsed) (hu : u.IsCollapsed)
    (ht' : t.IsLegible) (hu' : u.IsLegible) (hkind : t.baseKind = u.baseKind)
    (h : t.printParts = u.printParts) : t = u := by
  -- The parts give the same shape, so that of the sixteen pairs of shapes four are left.
  induction t using printInduction generalizing u with
  | base kind name q =>
    have hshape := shape_eq_of_printParts_eq ht' hu' h
    cases u using printInduction with
    | base kind' name' r =>
      rw [printParts_base, printParts_base] at h
      obtain ⟨rfl, hname⟩ := Quals.front_append_injective ht' hu' (Prod.mk.inj h).1
      obtain rfl : kind = kind' := hkind
      rw [String.toList_inj.mp hname]
    | sign l inner r hl _ => cases hshape.trans hl
    | array bound inner r _ | function inner r _ => cases hshape
  | sign l inner q hl ih =>
    have hshape := shape_eq_of_printParts_eq ht' hu' h
    cases u using printInduction with
    | base kind name r => cases hshape.symm.trans hl
    | sign l' inner' r hl' _ =>
      obtain ⟨rfl, rfl, hparts⟩ := printParts_sign_injective hl hl' ht hu ht'.1 hu'.1 h
      rw [ih ht.1 hu.1 ht'.1 hu'.1 hkind hparts]
    | array bound inner' r _ | function inner' r _ => cases hshape.symm.trans hl
  | array bound inner q ih =>
    have hshape := shape_eq_of_printParts_eq ht' hu' h
    cases u using printInduction with
    | base kind name r => cases hshape
    | sign l' inner' r hl' _ => cases hshape.trans hl'
    | array bound' inner' r _ =>
      obtain ⟨rfl, hbound⟩ := ht'.2 bound rfl
      obtain ⟨rfl, hbound'⟩ := hu'.2 bound' rfl
      obtain ⟨rfl, hparts⟩ := printParts_array_injective hbound hbound' h
      rw [ih ht.1 hu.1 ht'.1 hu'.1 hkind hparts]
    | function inner' r _ => cases hshape
  | function inner q ih =>
    have hshape := shape_eq_of_printParts_eq ht' hu' h
    cases u using printInduction with
    | base kind name r => cases hshape
    | sign l' inner' r hl' _ => cases hshape.trans hl'
    | array bound' inner' r _ => cases hshape
    | function inner' r _ =>
      obtain ⟨hleft, hright⟩ := Prod.mk.inj h
      have hparts : inner.printParts = inner'.printParts :=
        Prod.ext hleft (List.cons.inj (List.cons.inj hright).2).2
      obtain rfl := ht.2.2 rfl
      obtain rfl := hu.2.2 rfl
      rw [ih ht.1 hu.1 ht'.1 hu'.1 hkind hparts]

/-- Two types over the same kind of base that are printed alike are the same, if their names and
bounds are legible, references are collapsed, and references, arrays and functions have no
qualifiers. -/
theorem eq_of_text_eq {t u : QualType} (ht : t.IsCollapsed) (hu : u.IsCollapsed)
    (ht' : t.IsLegible) (hu' : u.IsLegible) (hkind : t.baseKind = u.baseKind)
    (h : t.text = u.text) : t = u := by
  have hprint : t.print = u.print := String.ofList_injective h
  exact eq_of_printParts_eq ht hu ht' hu' hkind (printParts_eq_of_print_eq ht' hu' hprint)

/-- An array of constant volatile pointers to functions that return a `const std::size_t *`. -/
def handlerTable : QualType :=
  (((base .named "std::size_t" .const).pointerTo.functionReturning.pointerTo).withQuals
    ⟨true, true⟩).arrayOf (some "n")

theorem handlerTable_isLegible : handlerTable.IsLegible := by
  have hname : IsName ("std".toList ++ ([':', ':'] ++ "size_t".toList)) :=
    .more (by decide) (by decide) (.word (by decide))
  refine ⟨⟨⟨⟨hname, nofun⟩, nofun⟩, nofun⟩, fun bound hbound => ?_⟩
  obtain rfl := Layer.array.inj hbound
  refine ⟨rfl, fun text htext => ?_⟩
  obtain rfl := Option.some.inj htext
  decide

theorem handlerTable_determined :
    handlerTable.text = "const std::size_t * (*const volatile [n])()" ∧
      .layer (.array (some "n")) (.layer .pointer (.layer .function
        (.layer .pointer (.base .named "std::size_t" .const) .none) .none) ⟨true, true⟩) .none =
          handlerTable :=
  ⟨by decide, eq_of_text_eq (by decide) (by decide) handlerTable_isLegible handlerTable_isLegible
    rfl rfl⟩

end QualType

end WidthCheck
