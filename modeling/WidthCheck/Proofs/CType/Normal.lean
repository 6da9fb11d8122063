import WidthCheck.CType.Literal
import WidthCheck.Proofs.CType.Keywords

/-!
# Normal types

In a normal type references are collapsed, references and functions are unqualified, and builtins
are spelled canonically. Every way of building a type from normal ones gives a normal one.
-/

namespace WidthCheck

namespace Builtin

/-- The keywords of a spelling, in order. -/
def wordsOf (spelling : String) : List String :=
  (Text.words spelling.toList).map String.ofList

/-- A spelling is canonical if it is the one that its own keywords have. -/
def IsCanonical (spelling : String) : Prop := canonical? (wordsOf spelling) = some spelling

instance (spelling : String) : Decidable (IsCanonical spelling) :=
  inferInstanceAs (Decidable (_ = _))

theorem isCanonical_integerSpelling (longs : Nat) (short unsigned : Bool) :
    IsCanonical (integerSpelling longs short unsigned) := by
  unfold integerSpelling
  split
  · split <;> decide
  split
  · split <;> decide
  · split <;> decide
  · split <;> decide

theorem isCanonical_baseKeyword {word : String} (h : word ∈ baseKeywords) :
    IsCanonical word := by
  have hall : ∀ word ∈ baseKeywords, IsCanonical word := by decide +kernel
  exact hall word h

-- Modifiers that a base keyword does not take are dropped, those it takes are put in front.
theorem isCanonical_spelling {base : Option String} (hbase : ∀ word ∈ base, word ∈ baseKeywords)
    (longs : Nat) (short signed unsigned : Bool) :
    IsCanonical (spelling base longs short signed unsigned) := by
  unfold spelling
  cases base with
  | none => exact isCanonical_integerSpelling longs short unsigned
  | some word =>
    have hword := isCanonical_baseKeyword (hbase word rfl)
    dsimp only
    split
    · exact isCanonical_integerSpelling longs short unsigned
    split
    · cases unsigned <;> cases signed <;> decide
    split
    · split <;> decide
    split
    · cases unsigned <;> decide
    · exact hword

theorem isCanonical_of_canonical? {words : List String} {spelling : String}
    (h : canonical? words = some spelling) : IsCanonical spelling := by
  obtain ⟨-, base, -, hkeyword, rfl⟩ := canonical?_eq_some_iff.mp h
  exact isCanonical_spelling hkeyword _ _ _ _

end Builtin

namespace QualType

/-- No reference refers to a reference, references and functions have no qualifiers, and builtins
are spelled canonically. -/
def IsNormal : QualType → Prop
  | .base kind name _ => kind = .builtin → Builtin.IsCanonical name
  | .layer l inner quals => inner.IsNormal ∧
      (l.isReference = true → inner.isReference = false) ∧
      (l.isReference = true ∨ l = .function → quals = .none)

/-- The type that is left when all references in front are looked through. -/
def belowReferences : QualType → QualType
  | .layer .lvalueRef t _ => t.belowReferences
  | .layer .rvalueRef t _ => t.belowReferences
  | t => t

theorem belowReferences_of_not_isReference {t : QualType} (h : t.isReference = false) :
    t.belowReferences = t := by
  cases t with
  | base kind name q => rfl
  | layer l inner q =>
    cases l with
    | lvalueRef | rvalueRef => cases h
    | pointer | array bound | function => rfl

theorem isNormal_builtin {spelling : String} (h : Builtin.IsCanonical spelling) :
    (builtin spelling).IsNormal :=
  fun _ => h

theorem isNormal_named (name : String) : (named name).IsNormal :=
  fun h => by cases h

theorem isNormal_templateParam (name : String) : (templateParam name).IsNormal :=
  fun h => by cases h

namespace IsNormal

variable {t : QualType}

theorem withQuals (h : t.IsNormal) (quals : Quals) : (t.withQuals quals).IsNormal := by
  cases t with
  | base kind name q => exact h
  | layer l inner q =>
    unfold QualType.withQuals
    cases l with
    | pointer | array bound =>
      exact ⟨h.1, h.2.1, fun hplain => by simp [Layer.isReference] at hplain⟩
    | lvalueRef | rvalueRef | function => exact h

-- Layers other than references can be put on any normal type.
theorem layer (h : t.IsNormal) {l : Layer} (hlayer : l.isReference = false) :
    (QualType.layer l t .none).IsNormal := by
  refine ⟨h, fun href => ?_, fun _ => rfl⟩
  rw [hlayer] at href
  cases href

theorem pointerTo (h : t.IsNormal) : t.pointerTo.IsNormal := h.layer rfl

theorem arrayOf (h : t.IsNormal) (bound : Option String) : (t.arrayOf bound).IsNormal :=
  h.layer rfl

theorem functionReturning (h : t.IsNormal) : t.functionReturning.IsNormal := h.layer rfl

theorem referee (h : t.IsNormal) : t.referee.IsNormal := by
  unfold QualType.referee
  split
  · exact h.1
  · exact h.1
  · exact h

-- What a normal reference refers to is none.
theorem isReference_referee (h : t.IsNormal) : t.referee.isReference = false := by
  cases t with
  | base kind name q => rfl
  | layer l inner q =>
    cases l with
    | lvalueRef | rvalueRef => exact h.2.1 rfl
    | pointer | array bound | function => rfl

-- In a normal type one reference is all there is to look through.
theorem belowReferences_eq (h : t.IsNormal) : t.belowReferences = t.referee := by
  cases t with
  | base kind name q => rfl
  | layer l inner q =>
    cases l with
    | lvalueRef | rvalueRef => exact belowReferences_of_not_isReference (h.2.1 rfl)
    | pointer | array bound | function => rfl

theorem lvalueRefTo (h : t.IsNormal) : t.lvalueRefTo.IsNormal :=
  ⟨h.referee, fun _ => h.isReference_referee, fun _ => rfl⟩

theorem rvalueRefTo (h : t.IsNormal) : t.rvalueRefTo.IsNormal := by
  unfold QualType.rvalueRefTo
  cases href : t.isReference
  · exact ⟨h, fun _ => href, fun _ => rfl⟩
  · exact h

theorem unqualified (h : t.IsNormal) : t.unqualified.IsNormal := by
  cases t with
  | base kind name q => exact h
  | layer l inner q => exact ⟨h.1, h.2.1, fun _ => rfl⟩

theorem decay (h : t.IsNormal) : t.decay.IsNormal := by
  unfold QualType.decay
  split
  · exact h.1.pointerTo
  · exact h.1.functionReturning.pointerTo
  · exact h

theorem promote (h : t.IsNormal) : t.promote.IsNormal := by
  unfold QualType.promote
  split
  · split
    · exact isNormal_builtin (by decide)
    · exact h.unqualified
  · exact h.unqualified

end IsNormal

/-! ## Literals -/

theorem isNormal_floatingType (body : List Char) : (Literal.floatingType body).IsNormal := by
  unfold Literal.floatingType
  split
  · exact isNormal_builtin (by decide)
  split
  · exact isNormal_builtin (by decide)
  · exact isNormal_builtin (by decide)

theorem isNormal_candidate {c : Literal.Candidate} (h : c ∈ Literal.candidates) :
    (builtin c.spelling).IsNormal := by
  have hall : ∀ c ∈ Literal.candidates, Builtin.IsCanonical c.spelling := by decide
  exact isNormal_builtin (hall c h)

theorem isNormal_integerType? {radix : Literal.Radix} {body : List Char} {ty : QualType}
    (h : Literal.integerType? radix body = some ty) : ty.IsNormal := by
  unfold Literal.integerType? at h
  dsimp only at h
  split at h
  · cases h
  split at h
  · obtain rfl := Option.some.inj h
    exact isNormal_named _
  · obtain ⟨c, hfound, rfl⟩ := Option.map_eq_some_iff.mp h
    have hopen := List.mem_of_find?_eq_some hfound
    exact isNormal_candidate (List.mem_of_mem_drop (List.mem_filter.mp hopen).1)

theorem isNormal_numberType? {token : String} {ty : QualType}
    (h : Literal.numberType? token = some ty) : ty.IsNormal := by
  unfold Literal.numberType? at h
  dsimp only at h
  split at h
  · obtain rfl := Option.some.inj h
    exact isNormal_floatingType _
  · exact isNormal_integerType? h

theorem isNormal_charType (token : String) : (Literal.charType token).IsNormal := by
  apply isNormal_builtin
  split <;> decide

end QualType

end WidthCheck
