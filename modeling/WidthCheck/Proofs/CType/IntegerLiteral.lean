import Mathlib.Data.Nat.Digits.Defs
import WidthCheck.CType.Literal
import WidthCheck.Proofs.Text.Words

/-!
# Integer literals

An integer literal is a number written in one of four radices, with a suffix. A token may write it
with signs in front, with separators between the digits and in either case. The type of the token
is the first of the types listed for the radix and the suffix that can hold the number. An octal
literal with a suffix is the exception: it is taken for a decimal one.
-/

namespace WidthCheck.Literal

/-! ## Types of integers -/

/-- The types that an integer literal may have. -/
inductive IntegerType where
  | int
  | unsignedInt
  | long
  | unsignedLong
  | longLong
  | unsignedLongLong
deriving DecidableEq, Repr

namespace IntegerType

def spelling : IntegerType → String
  | int => "int"
  | unsignedInt => "unsigned int"
  | long => "long"
  | unsignedLong => "unsigned long"
  | longLong => "long long"
  | unsignedLongLong => "unsigned long long"

/-- The largest value of a type. -/
def largest : IntegerType → Nat
  | int => 2 ^ 31 - 1
  | unsignedInt => 2 ^ 32 - 1
  | long | longLong => 2 ^ 63 - 1
  | unsignedLong | unsignedLongLong => 2 ^ 64 - 1

def Represents (t : IntegerType) (number : Nat) : Prop := number ≤ t.largest

instance (t : IntegerType) (number : Nat) : Decidable (t.Represents number) :=
  inferInstanceAs (Decidable (_ ≤ _))

/-- The entry of a type in the table of candidates. -/
def candidate : IntegerType → Candidate
  | int => ⟨"int", 32, false⟩
  | unsignedInt => ⟨"unsigned int", 32, true⟩
  | long => ⟨"long", 64, false⟩
  | unsignedLong => ⟨"unsigned long", 64, true⟩
  | longLong => ⟨"long long", 64, false⟩
  | unsignedLongLong => ⟨"unsigned long long", 64, true⟩

theorem spelling_candidate (t : IntegerType) : t.candidate.spelling = t.spelling := by
  cases t <;> rfl

theorem lt_limit_candidate_iff {t : IntegerType} {number : Nat} :
    number < t.candidate.limit ↔ t.Represents number := by
  have hlimit : t.candidate.limit = t.largest + 1 := by cases t <;> rfl
  rw [hlimit, Represents, Nat.lt_succ_iff]

theorem builtin_spelling_injective {s t : IntegerType}
    (h : QualType.builtin s.spelling = QualType.builtin t.spelling) : s = t := by
  have hspelling : s.spelling = t.spelling := by
    injection h
  revert hspelling
  cases s <;> cases t <;> decide

end IntegerType

/-! ## Suffixes -/

/-- How often the letter `l` stands in a suffix. -/
inductive LongMark where
  | absent
  | once
  | twice
deriving DecidableEq, Repr

/-- The suffix of an integer literal. -/
structure Suffix where
  unsigned : Bool
  long : LongMark
deriving DecidableEq, Repr

namespace Suffix

def none : Suffix := ⟨false, .absent⟩

/-- The number of letters `l`. -/
def longs (s : Suffix) : Nat :=
  match s.long with
  | .absent => 0
  | .once => 1
  | .twice => 2

/-- The ways to write a suffix in lower case: `u` may stand on either side. -/
def spellings (s : Suffix) : List (List Char) :=
  let u := if s.unsigned then ['u'] else []
  let l := List.replicate s.longs 'l'
  [u ++ l, l ++ u]

/-- The types that the language lists for literals with a suffix, in order; decimal literals have a
list of their own. -/
def types (decimal : Bool) : Suffix → List IntegerType
  | ⟨false, .absent⟩ =>
      if decimal then [.int, .long, .longLong]
      else [.int, .unsignedInt, .long, .unsignedLong, .longLong, .unsignedLongLong]
  | ⟨false, .once⟩ =>
      if decimal then [.long, .longLong]
      else [.long, .unsignedLong, .longLong, .unsignedLongLong]
  | ⟨false, .twice⟩ =>
      if decimal then [.longLong] else [.longLong, .unsignedLongLong]
  | ⟨true, .absent⟩ => [.unsignedInt, .unsignedLong, .unsignedLongLong]
  | ⟨true, .once⟩ => [.unsignedLong, .unsignedLongLong]
  | ⟨true, .twice⟩ => [.unsignedLongLong]

/-- The first type of a list that can represent a number. -/
def firstType? (s : Suffix) (decimal : Bool) (number : Nat) : Option IntegerType :=
  (s.types decimal).find? (·.Represents number)

-- What the reader asks of a suffix: which letters it has, and whether it is there at all.
theorem letters_of_mem_spellings {s : Suffix} {tail : List Char} (h : tail ∈ s.spellings) :
    (∀ c ∈ tail, c = 'u' ∨ c = 'l') ∧ tail.contains 'u' = s.unsigned ∧
      tail.count 'l' = s.longs ∧ (tail = [] ↔ s = none) := by
  obtain ⟨unsigned, long⟩ := s
  revert tail
  cases unsigned <;> cases long <;> decide

theorem openCandidates_eq (radix : Radix) (s : Suffix) :
    openCandidates radix s.unsigned s.longs =
      (s.types (radix = .decimal)).map IntegerType.candidate := by
  obtain ⟨unsigned, long⟩ := s
  cases radix <;> cases unsigned <;> cases long <;> rfl

theorem find?_openCandidates (radix : Radix) (s : Suffix) (number : Nat) :
    ((openCandidates radix s.unsigned s.longs).find? (number < ·.limit)).map
        (fun c => QualType.builtin c.spelling) =
      (s.firstType? (radix = .decimal) number).map (fun t => .builtin t.spelling) := by
  have hfits : ((fun c : Candidate => decide (number < c.limit)) ∘ IntegerType.candidate) =
      fun t => decide (t.Represents number) := by
    funext t
    exact decide_eq_decide.mpr IntegerType.lt_limit_candidate_iff
  rw [openCandidates_eq, List.find?_map, hfits, Option.map_map]
  congr 1
  funext t
  exact congrArg QualType.builtin t.spelling_candidate

end Suffix

/-! ## Literals and their tokens -/

/-- What stands in front of the digits. -/
def Radix.mark : Radix → List Char
  | binary => ['0', 'b']
  | octal => ['0']
  | decimal => []
  | hexadecimal => ['0', 'x']

/-- A number in some radix, and a suffix. The digits are those after the mark of the radix; an octal
literal may have none, and a decimal one starts with a zero only if it is zero. -/
structure IntegerLiteral where
  radix : Radix
  digits : List Nat
  suffix : Suffix
  digits_lt : ∀ d ∈ digits, d < radix.value
  digits_ne_nil : radix ≠ .octal → digits ≠ []
  leading_zero : radix = .decimal → digits.head? = some 0 → digits = [0]

/-- One text in place of another: any letter may be a capital, and separators may stand
anywhere. -/
inductive Writes : List Char → List Char → Prop where
  | done : Writes [] []
  | letter {c d : Char} {written text : List Char} (hcase : c = d ∨ c = d.toUpper)
      (hrest : Writes written text) : Writes (c :: written) (d :: text)
  | separator {written text : List Char} (hrest : Writes written text) :
      Writes ('\x27' :: written) text

namespace Writes

variable {c d : Char} {written text : List Char}

theorem cons_nil_iff : Writes (c :: written) [] ↔ c = '\x27' ∧ Writes written [] := by
  refine ⟨fun h => ?_, ?_⟩
  · cases h with
    | separator hrest => exact ⟨rfl, hrest⟩
  · rintro ⟨rfl, hrest⟩
    exact .separator hrest

theorem cons_cons_iff : Writes (c :: written) (d :: text) ↔
    (c = '\x27' ∧ Writes written (d :: text)) ∨
      ((c = d ∨ c = d.toUpper) ∧ Writes written text) := by
  refine ⟨fun h => ?_, ?_⟩
  · cases h with
    | letter hcase hrest => exact .inr ⟨hcase, hrest⟩
    | separator hrest => exact .inl ⟨rfl, hrest⟩
  · rintro (⟨rfl, hrest⟩ | ⟨hcase, hrest⟩)
    · exact .separator hrest
    · exact .letter hcase hrest

instance decidable : (written text : List Char) → Decidable (Writes written text)
  | [], [] => .isTrue .done
  | [], _ :: _ => .isFalse nofun
  | _ :: written, [] =>
      have := decidable written []
      decidable_of_iff _ cons_nil_iff.symm
  | _ :: written, d :: text =>
      have := decidable written (d :: text)
      have := decidable written text
      decidable_of_iff _ cons_cons_iff.symm

end Writes

namespace IntegerLiteral

def value (lit : IntegerLiteral) : Nat := Nat.ofDigits lit.radix.value lit.digits.reverse

/-- The texts of a literal in lower case, one for each way to write the suffix. -/
def texts (lit : IntegerLiteral) : List (List Char) :=
  lit.suffix.spellings.map fun tail => lit.radix.mark ++ (lit.digits.map Nat.digitChar ++ tail)

/-- A token for a literal: signs, blanks after them, and then the literal. -/
def Spells (lit : IntegerLiteral) (token : String) : Prop :=
  ∃ signs blanks written, ∃ text ∈ lit.texts,
    token.toList = signs ++ (blanks ++ written) ∧ (∀ c ∈ signs, c = '-' ∨ c = '+') ∧
      (∀ c ∈ blanks, Text.isBlank c = true) ∧ Writes written text

end IntegerLiteral

/-! ## Normalized tokens -/

/-- The letters and digits that literals are made of. -/
def letters : List Char :=
  ['0', '1', '2', '3', '4', '5', '6', '7', '8', '9', 'a', 'b', 'c', 'd', 'e', 'f', 'x', 'u', 'l']

-- No form of a letter is dropped as a sign, a blank or a separator.
theorem forms_of_mem_letters {c d : Char} (hd : d ∈ letters) (hcase : c = d ∨ c = d.toUpper) :
    c.toLower = d ∧ c ≠ '\x27' ∧ (c == '-' || c == '+') = false ∧ Text.isBlank c = false := by
  have hall : ∀ d ∈ letters, ∀ c ∈ [d, d.toUpper],
      c.toLower = d ∧ c ≠ '\x27' ∧ (c == '-' || c == '+') = false ∧ Text.isBlank c = false := by
    decide
  exact hall d hd c (by simpa using hcase)

theorem Radix.value_le (radix : Radix) : radix.value ≤ 16 := by
  cases radix <;> decide

theorem digitChar_mem_letters {d : Nat} (h : d < 16) : d.digitChar ∈ letters := by
  revert d
  decide

theorem mem_letters_of_mem_texts {lit : IntegerLiteral} {text : List Char}
    (h : text ∈ lit.texts) : ∀ c ∈ text, c ∈ letters := by
  obtain ⟨tail, htail, rfl⟩ := List.mem_map.mp h
  intro c hc
  rw [List.mem_append, List.mem_append] at hc
  rcases hc with hmark | hdigit | hsuffix
  · have hall : ∀ c ∈ lit.radix.mark, c ∈ letters := by cases lit.radix <;> decide
    exact hall c hmark
  · obtain ⟨d, hd, rfl⟩ := List.mem_map.mp hdigit
    exact digitChar_mem_letters ((lit.digits_lt d hd).trans_le lit.radix.value_le)
  · rcases (Suffix.letters_of_mem_spellings htail).1 c hsuffix with rfl | rfl <;> decide

namespace Writes

variable {written text : List Char}

theorem normalized (h : Writes written text) (hletters : ∀ d ∈ text, d ∈ letters) :
    (written.filter (· ≠ '\x27')).map Char.toLower = text := by
  induction h with
  | done => rfl
  | letter hcase _ ih =>
    obtain ⟨hd, hrest⟩ := List.forall_mem_cons.mp hletters
    obtain ⟨hlower, hseparator, -⟩ := forms_of_mem_letters hd hcase
    rw [List.filter_cons_of_pos (by simpa using hseparator), List.map_cons, hlower, ih hrest]
  | separator _ ih =>
    rw [List.filter_cons_of_neg (by simp)]
    exact ih hletters

theorem head_plain (h : Writes written text) (hletters : ∀ d ∈ text, d ∈ letters) :
    ∀ c ∈ written.head?, (c == '-' || c == '+') = false ∧ Text.isBlank c = false := by
  cases h with
  | done => simp
  | letter hcase _ =>
    rintro c ⟨⟩
    exact (forms_of_mem_letters (hletters _ List.mem_cons_self) hcase).2.2
  | separator _ =>
    rintro c ⟨⟩
    decide

end Writes

theorem dropWhile_of_head? {p : Char → Bool} {cs : List Char}
    (h : ∀ c ∈ cs.head?, p c = false) : cs.dropWhile p = cs := by
  cases cs with
  | nil => rfl
  | cons c rest => exact List.dropWhile_cons_of_neg (by simp [h c rfl])

theorem normalize_of_spells {lit : IntegerLiteral} {token : String} (h : lit.Spells token) :
    normalize token.toList ∈ lit.texts := by
  obtain ⟨signs, blanks, written, text, htext, htoken, hsigns, hblanks, hwritten⟩ := h
  have hletters := mem_letters_of_mem_texts htext
  have hplain := hwritten.head_plain hletters
  have hsign : ∀ c ∈ signs, (c == '-' || c == '+') = true := by simpa using hsigns
  -- What follows the signs starts with a blank, a separator or a letter.
  have hstart : ∀ c ∈ (blanks ++ written).head?, (c == '-' || c == '+') = false := by
    cases blanks with
    | nil => exact fun c hc => (hplain c hc).1
    | cons blank rest =>
      rintro c ⟨⟩
      have hall : ∀ c ∈ Text.blanks, (c == '-' || c == '+') = false := by decide
      exact hall blank (List.contains_iff_mem.mp (hblanks blank List.mem_cons_self))
  have hnormal : normalize token.toList = text := by
    unfold normalize Text.trimLeft
    rw [htoken, List.dropWhile_append_of_pos hsign, dropWhile_of_head? hstart,
      List.dropWhile_append_of_pos hblanks, dropWhile_of_head? fun c hc => (hplain c hc).2]
    exact hwritten.normalized hletters
  rw [hnormal]
  exact htext

/-! ## The number and its type -/

theorem digitValue?_digitChar {d : Nat} (h : d < 16) : digitValue? d.digitChar = some d := by
  revert d
  decide

theorem digitsValue?_digits {radix : Nat} (hradix : radix ≤ 16) {digits : List Nat}
    (hdigits : ∀ d ∈ digits, d < radix) (before : Nat) :
    digitsValue? radix (digits.map Nat.digitChar) before =
      some (Nat.ofDigits radix digits.reverse + radix ^ digits.length * before) := by
  induction digits generalizing before with
  | nil => simp [digitsValue?]
  | cons d digits ih =>
    obtain ⟨hd, hrest⟩ := List.forall_mem_cons.mp hdigits
    rw [List.map_cons, digitsValue?, digitValue?_digitChar (by omega)]
    dsimp only
    rw [if_pos hd, ih hrest, Nat.ofDigits_reverse_cons, List.length_cons]
    congr 1
    ring

theorem numberValue?_digits {radix : Radix} {digits : List Nat}
    (hdigits : ∀ d ∈ digits, d < radix.value) (hne : digits ≠ []) :
    numberValue? radix (digits.map Nat.digitChar) =
      if Nat.ofDigits radix.value digits.reverse < valueLimit then
        some (Nat.ofDigits radix.value digits.reverse) else none := by
  have hplus : ∀ rest, digits.map Nat.digitChar ≠ '+' :: rest := by
    intro rest hrest
    obtain ⟨d, hd, hchar⟩ := List.mem_map.mp (hrest ▸ List.mem_cons_self (l := rest))
    have hletter := digitChar_mem_letters ((hdigits d hd).trans_le radix.value_le)
    rw [hchar] at hletter
    revert hletter
    decide
  unfold numberValue?
  dsimp only
  split
  · exact absurd ‹_› (hplus _)
  · rw [if_neg (by simpa using hne), digitsValue?_digits radix.value_le hdigits]
    simp

theorem isFloating_digits {radix : Radix} {digits : List Nat}
    (hdigits : ∀ d ∈ digits, d < radix.value) {s : Suffix} {tail : List Char}
    (htail : tail ∈ s.spellings) :
    isFloating radix (digits.map Nat.digitChar ++ tail) = false := by
  obtain ⟨hletters, -⟩ := Suffix.letters_of_mem_spellings htail
  have habsent : ∀ c : Char, c ≠ 'u' → c ≠ 'l' → (∀ d < radix.value, d.digitChar ≠ c) →
      (digits.map Nat.digitChar ++ tail).contains c = false := by
    intro c hu hl hc
    rw [← Bool.not_eq_true, List.contains_iff_mem, List.mem_append, List.mem_map]
    rintro (⟨d, hd, hchar⟩ | hmem)
    · exact hc d (hdigits d hd) hchar
    · rcases hletters c hmem with rfl | rfl
      · exact hu rfl
      · exact hl rfl
  cases radix with
  | binary => rfl
  | octal => rfl
  | decimal =>
    rw [isFloating, habsent '.' (by decide) (by decide) (by decide),
      habsent 'e' (by decide) (by decide) (by decide)]
    rfl
  | hexadecimal => exact habsent 'p' (by decide) (by decide) (by decide)

-- Numbers that are not even read are too large for every type.
theorem firstType?_of_valueLimit_le {s : Suffix} {decimal : Bool} {number : Nat}
    (h : valueLimit ≤ number) : s.firstType? decimal number = none := by
  rw [Suffix.firstType?, List.find?_eq_none]
  intro t _
  have hlargest : t.largest < valueLimit := by cases t <;> decide
  rw [decide_eq_true_eq]
  exact Nat.not_le.mpr (hlargest.trans_le h)

theorem integerType?_digits {radix : Radix} {digits : List Nat}
    (hdigits : ∀ d ∈ digits, d < radix.value) (hne : digits ≠ []) {s : Suffix} {tail : List Char}
    (htail : tail ∈ s.spellings) :
    integerType? radix (digits.map Nat.digitChar ++ tail) =
      (s.firstType? (radix = .decimal) (Nat.ofDigits radix.value digits.reverse)).map
        fun t => .builtin t.spelling := by
  obtain ⟨hletters, hunsigned, hlongs, -⟩ := Suffix.letters_of_mem_spellings htail
  have hdigit : ∀ c ∈ digits.map Nat.digitChar, (!isSuffixStart c) = true := by
    intro c hc
    obtain ⟨d, hd, rfl⟩ := List.mem_map.mp hc
    have hall : ∀ d < 16, (!isSuffixStart d.digitChar) = true := by decide
    exact hall d ((hdigits d hd).trans_le radix.value_le)
  have hstart : ∀ c ∈ tail, isSuffixStart c = true := by
    intro c hc
    rcases hletters c hc with rfl | rfl <;> rfl
  have htake : (digits.map Nat.digitChar ++ tail).takeWhile (!isSuffixStart ·) =
      digits.map Nat.digitChar := by
    rw [List.takeWhile_append_of_pos hdigit]
    cases tail with
    | nil => simp
    | cons c rest => simp [hstart c List.mem_cons_self]
  have hdrop : (digits.map Nat.digitChar ++ tail).dropWhile (!isSuffixStart ·) = tail := by
    rw [List.dropWhile_append_of_pos hdigit]
    refine dropWhile_of_head? fun c hc => ?_
    rw [hstart c (List.mem_of_mem_head? hc)]
    rfl
  have hsize : tail.contains 'z' = false := by
    rw [← Bool.not_eq_true, List.contains_iff_mem]
    intro hz
    rcases hletters 'z' hz with h | h <;> revert h <;> decide
  unfold integerType?
  dsimp only
  rw [htake, hdrop, numberValue?_digits hdigits hne, hunsigned, hlongs, hsize]
  by_cases hvalue : Nat.ofDigits radix.value digits.reverse < valueLimit
  · rw [if_pos hvalue]
    exact s.find?_openCandidates radix _
  · rw [if_neg hvalue, firstType?_of_valueLimit_le (not_lt.mp hvalue)]
    rfl

/-- The type of a token, from the radix it is taken to have and what is then left of it. -/
theorem numberType?_of_split {token : String} {radix : Radix} {digits : List Nat} {s : Suffix}
    {tail : List Char}
    (hsplit : splitRadix (normalize token.toList) = (radix, digits.map Nat.digitChar ++ tail))
    (hdigits : ∀ d ∈ digits, d < radix.value) (hne : digits ≠ []) (htail : tail ∈ s.spellings) :
    numberType? token =
      (s.firstType? (radix = .decimal) (Nat.ofDigits radix.value digits.reverse)).map
        fun t => .builtin t.spelling := by
  unfold numberType?
  rw [hsplit]
  dsimp only
  rw [if_neg (by simp [isFloating_digits hdigits htail]), integerType?_digits hdigits hne htail]

/-! ## The radix of a token -/

theorem splitRadix_zero {c : Char} (hx : c ≠ 'x') (hb : c ≠ 'b') (body : List Char) :
    splitRadix ('0' :: c :: body) =
      if (c :: body).all Char.isDigit then (.octal, c :: body)
      else (.decimal, '0' :: c :: body) := by
  unfold splitRadix
  split <;> simp_all

theorem splitRadix_octal {digits : List Nat} (hdigits : ∀ d ∈ digits, d < 8)
    (hne : digits ≠ []) :
    splitRadix ('0' :: digits.map Nat.digitChar) = (.octal, digits.map Nat.digitChar) := by
  have hdigit : ∀ d < 8, d.digitChar.isDigit = true ∧ d.digitChar ≠ 'x' ∧ d.digitChar ≠ 'b' := by
    decide
  have hall : (digits.map Nat.digitChar).all Char.isDigit = true := by
    rw [List.all_eq_true]
    intro c hc
    obtain ⟨d, hd, rfl⟩ := List.mem_map.mp hc
    exact (hdigit d (hdigits d hd)).1
  cases digits with
  | nil => exact absurd rfl hne
  | cons d rest =>
    obtain ⟨-, hx, hb⟩ := hdigit d (hdigits d List.mem_cons_self)
    rw [List.map_cons] at hall ⊢
    rw [splitRadix_zero hx hb, if_pos hall]

-- The letters of a suffix are no digits, so a leading zero does not mark the number as octal.
theorem splitRadix_suffixed {digits : List Nat} (hdigits : ∀ d ∈ digits, d < 8) {s : Suffix}
    {tail : List Char} (htail : tail ∈ s.spellings) (hne : tail ≠ []) :
    splitRadix ('0' :: (digits.map Nat.digitChar ++ tail)) =
      (.decimal, '0' :: (digits.map Nat.digitChar ++ tail)) := by
  obtain ⟨hletters, -⟩ := Suffix.letters_of_mem_spellings htail
  have hletter : ∀ c ∈ tail, c.isDigit = false ∧ c ≠ 'x' ∧ c ≠ 'b' := by
    intro c hc
    rcases hletters c hc with rfl | rfl <;> decide
  have hdigit : ∀ d < 8, d.digitChar ≠ 'x' ∧ d.digitChar ≠ 'b' := by decide
  have hall : (digits.map Nat.digitChar ++ tail).all Char.isDigit = false := by
    obtain ⟨c, hc⟩ := List.exists_mem_of_ne_nil tail hne
    rw [List.all_eq_false]
    exact ⟨c, List.mem_append_right _ hc, by simp [(hletter c hc).1]⟩
  have hplain : ∀ c ∈ digits.map Nat.digitChar ++ tail, c ≠ 'x' ∧ c ≠ 'b' := by
    intro c hc
    rcases List.mem_append.mp hc with hc | hc
    · obtain ⟨d, hd, rfl⟩ := List.mem_map.mp hc
      exact hdigit d (hdigits d hd)
    · exact (hletter c hc).2
  cases hbody : digits.map Nat.digitChar ++ tail with
  | nil => exact absurd (List.append_eq_nil_iff.mp hbody).2 hne
  | cons c rest =>
    rw [hbody] at hall hplain
    obtain ⟨hx, hb⟩ := hplain c List.mem_cons_self
    rw [splitRadix_zero hx hb, if_neg (by simp [hall])]

theorem splitRadix_of_ne_zero {c : Char} (h : c ≠ '0') (body : List Char) :
    splitRadix (c :: body) = (.decimal, c :: body) := by
  unfold splitRadix
  split <;> simp_all

theorem splitRadix_decimal {digits : List Nat} (hdigits : ∀ d ∈ digits, d < 10)
    (hne : digits ≠ []) (hzero : digits.head? = some 0 → digits = [0]) {s : Suffix}
    {tail : List Char} (htail : tail ∈ s.spellings) :
    splitRadix (digits.map Nat.digitChar ++ tail) =
      (.decimal, digits.map Nat.digitChar ++ tail) := by
  cases digits with
  | nil => exact absurd rfl hne
  | cons d rest =>
    by_cases hd : d = 0
    · obtain rfl : rest = [] := by simpa [hd] using hzero
      subst hd
      by_cases hnil : tail = []
      · subst hnil
        rfl
      · have hnone : ∀ d ∈ ([] : List Nat), d < 8 := by simp
        exact splitRadix_suffixed hnone htail hnil
    · have hchar : ∀ d < 10, d ≠ 0 → d.digitChar ≠ '0' := by decide
      exact splitRadix_of_ne_zero (hchar d (hdigits d List.mem_cons_self) hd) _

/-! ## The type of a token -/

/-- The type that the language gives a literal, if there is one. -/
def IntegerLiteral.type? (lit : IntegerLiteral) : Option IntegerType :=
  lit.suffix.firstType? (lit.radix = .decimal) lit.value

section

variable {token : String} {lit : IntegerLiteral}

theorem numberType?_of_marked (h : lit.Spells token)
    (hradix : lit.radix = .binary ∨ lit.radix = .hexadecimal) :
    numberType? token = lit.type?.map fun t => .builtin t.spelling := by
  obtain ⟨tail, htail, hnormal⟩ := List.mem_map.mp (normalize_of_spells h)
  have hne : lit.digits ≠ [] := by
    apply lit.digits_ne_nil
    rcases hradix with hradix | hradix <;> rw [hradix] <;> decide
  refine numberType?_of_split ?_ lit.digits_lt hne htail
  rw [← hnormal]
  rcases hradix with hradix | hradix <;> rw [hradix] <;> rfl

theorem numberType?_of_decimal (h : lit.Spells token) (hradix : lit.radix = .decimal) :
    numberType? token = lit.type?.map fun t => .builtin t.spelling := by
  obtain ⟨tail, htail, hnormal⟩ := List.mem_map.mp (normalize_of_spells h)
  obtain ⟨radix, digits, s, hdigits, hne, hzero⟩ := lit
  obtain rfl : radix = .decimal := hradix
  have hsome : digits ≠ [] := hne (by decide)
  refine numberType?_of_split ?_ hdigits hsome htail
  rw [← hnormal]
  exact splitRadix_decimal hdigits hsome (hzero rfl) htail

theorem numberType?_of_octal (h : lit.Spells token) (hradix : lit.radix = .octal)
    (hsuffix : lit.suffix = .none) :
    numberType? token = lit.type?.map fun t => .builtin t.spelling := by
  obtain ⟨tail, htail, hnormal⟩ := List.mem_map.mp (normalize_of_spells h)
  obtain ⟨radix, digits, s, hdigits, hne, hzero⟩ := lit
  obtain rfl : radix = .octal := hradix
  obtain rfl : s = .none := hsuffix
  obtain rfl : tail = [] := (Suffix.letters_of_mem_spellings htail).2.2.2.mpr rfl
  rw [List.append_nil] at hnormal
  by_cases hnil : digits = []
  · -- The lone zero is read as a decimal number, which makes no difference to its type.
    subst hnil
    have hsplit : splitRadix (normalize token.toList) =
        (.decimal, [0].map Nat.digitChar ++ []) := by
      rw [← hnormal]
      rfl
    rw [numberType?_of_split hsplit (by decide) (by decide) htail]
    rfl
  · refine numberType?_of_split ?_ hdigits hnil htail
    rw [← hnormal, List.append_nil]
    exact splitRadix_octal hdigits hnil

/-- A token that spells an integer literal has the first type, of those listed for the radix and
the suffix, that can represent the number, and none if no type can. The literal is not an octal one
with a suffix. -/
theorem numberType?_of_spells {token : String} {lit : IntegerLiteral} (h : lit.Spells token)
    (hoctal : lit.radix = .octal → lit.suffix = .none) :
    numberType? token = lit.type?.map fun t => .builtin t.spelling := by
  cases hradix : lit.radix with
  | binary => exact numberType?_of_marked h (.inl hradix)
  | hexadecimal => exact numberType?_of_marked h (.inr hradix)
  | decimal => exact numberType?_of_decimal h hradix
  | octal => exact numberType?_of_octal h hradix (hoctal hradix)

/-- The number 2⁶³ in hexadecimal, with the suffix `l`. -/
def hexadecimalTop : IntegerLiteral where
  radix := .hexadecimal
  digits := 8 :: List.replicate 15 0
  suffix := ⟨false, .once⟩
  digits_lt := by decide
  digits_ne_nil := by decide
  leading_zero := by decide

/-- The same number in decimal, with the same suffix. -/
def decimalTop : IntegerLiteral where
  radix := .decimal
  digits := [9, 2, 2, 3, 3, 7, 2, 0, 3, 6, 8, 5, 4, 7, 7, 5, 8, 0, 8]
  suffix := ⟨false, .once⟩
  digits_lt := by decide
  digits_ne_nil := by decide
  leading_zero := by decide

theorem hexadecimalTop_spells : hexadecimalTop.Spells "-0X8000'0000'0000'0000L" :=
  ⟨['-'], [], "0X8000'0000'0000'0000L".toList, "0x8000000000000000l".toList, by decide, by decide,
    by decide, by decide, by decide⟩

theorem decimalTop_spells : decimalTop.Spells "+ 9'223'372'036'854'775'808l" :=
  ⟨['+'], [' '], "9'223'372'036'854'775'808l".toList, "9223372036854775808l".toList, by decide,
    by decide, by decide, by decide, by decide⟩

-- One more than `long` can hold: only the hexadecimal literal may become unsigned.
theorem topLiterals_typed :
    numberType? "-0X8000'0000'0000'0000L" = some (.builtin "unsigned long") ∧
      numberType? "+ 9'223'372'036'854'775'808l" = none := by
  refine ⟨?_, ?_⟩
  · rw [numberType?_of_spells hexadecimalTop_spells (by decide)]
    decide
  · rw [numberType?_of_spells decimalTop_spells (by decide)]
    decide

/-! ## Octal literals with a suffix -/

/-- The number that the digits of a literal give in decimal. -/
def IntegerLiteral.decimalReading (lit : IntegerLiteral) : Nat := Nat.ofDigits 10 lit.digits.reverse

theorem value_le_decimalReading (hradix : lit.radix = .octal) :
    lit.value ≤ lit.decimalReading := by
  rw [IntegerLiteral.value, hradix]
  exact Nat.ofDigits_monotone lit.digits.reverse (by decide)

theorem numberType?_of_suffixed (h : lit.Spells token) (hradix : lit.radix = .octal)
    (hsuffix : lit.suffix ≠ .none) :
    numberType? token =
      (lit.suffix.firstType? true lit.decimalReading).map fun t => .builtin t.spelling := by
  obtain ⟨tail, htail, hnormal⟩ := List.mem_map.mp (normalize_of_spells h)
  obtain ⟨radix, digits, s, hdigits, hne, hzero⟩ := lit
  obtain rfl : radix = .octal := hradix
  have hsome : tail ≠ [] := fun hnil =>
    hsuffix ((Suffix.letters_of_mem_spellings htail).2.2.2.mp hnil)
  -- The zero in front becomes a digit, which adds nothing to the number.
  have hsplit : splitRadix (normalize token.toList) =
      (.decimal, (0 :: digits).map Nat.digitChar ++ tail) := by
    rw [← hnormal]
    exact splitRadix_suffixed hdigits htail hsome
  have hdecimal : ∀ d ∈ 0 :: digits, d < Radix.decimal.value := by
    refine List.forall_mem_cons.mpr ⟨by decide, fun d hd => ?_⟩
    exact (hdigits d hd).trans (by decide)
  rw [numberType?_of_split hsplit hdecimal (List.cons_ne_nil 0 digits) htail,
    Nat.ofDigits_reverse_zero_cons]
  rfl

end

theorem find?_eq_find?_iff {α : Type} {p q : α → Bool} (h : ∀ a, p a = true → q a = true)
    (l : List α) : l.find? p = l.find? q ↔ ∀ a, l.find? q = some a → p a = true := by
  induction l with
  | nil => simp
  | cons b l ih =>
    by_cases hq : q b = true
    · by_cases hp : p b = true
      · simp [hp, hq]
      · have hne : l.find? p ≠ some b := fun hb => hp (List.find?_some hb)
        simp [hp, hq, hne]
    · have hp : ¬p b = true := fun hp => hq (h b hp)
      simpa [hp, hq] using ih

namespace Suffix

variable {s : Suffix}

/-- Whether a type is listed for decimal literals too, when it is listed for others. -/
def isOpenToDecimal (s : Suffix) (t : IntegerType) : Bool := s.unsigned || !t.candidate.unsigned

theorem types_true (s : Suffix) : s.types true = (s.types false).filter s.isOpenToDecimal := by
  obtain ⟨unsigned, long⟩ := s
  cases unsigned <;> cases long <;> rfl

theorem firstType?_true_eq_iff {number reading : Nat} (h : number ≤ reading) :
    s.firstType? true reading = s.firstType? false number ↔
      ∀ t, s.firstType? false number = some t → t ∈ s.types true ∧ t.Represents reading := by
  have hsmaller : ∀ t : IntegerType,
      decide (s.isOpenToDecimal t = true ∧ decide (t.Represents reading) = true) = true →
        decide (t.Represents number) = true := by
    intro t ht
    simp only [decide_eq_true_eq] at ht ⊢
    exact h.trans ht.2
  unfold firstType?
  rw [types_true, List.find?_filter, find?_eq_find?_iff hsmaller]
  refine forall₂_congr fun t ht => ?_
  have hmem := List.mem_of_find?_eq_some ht
  simp [List.mem_filter, hmem]

end Suffix

/-- An octal literal with a suffix has the type of the decimal literal with the same digits. This is
the type of the hexadecimal literal of the same number exactly if that type, when there is one, is
listed for decimal literals and can represent the digits read in decimal. -/
theorem numberType?_of_suffixedOctal {token : String} {lit : IntegerLiteral}
    (h : lit.Spells token) (hradix : lit.radix = .octal) (hsuffix : lit.suffix ≠ .none) :
    numberType? token =
      (lit.suffix.firstType? true lit.decimalReading).map (fun t => .builtin t.spelling) ∧
    ∀ (other : String) (hex : IntegerLiteral), hex.Spells other → hex.radix = .hexadecimal →
      hex.value = lit.value → hex.suffix = lit.suffix →
      (numberType? token = numberType? other ↔
        ∀ t, hex.type? = some t → t ∈ lit.suffix.types true ∧ t.Represents lit.decimalReading) := by
  have htoken := numberType?_of_suffixed h hradix hsuffix
  refine ⟨htoken, fun other hex hother hhex hvalue hsame => ?_⟩
  have htype : hex.type? = lit.suffix.firstType? false lit.value := by
    rw [IntegerLiteral.type?, hhex, hvalue, hsame]
    rfl
  have hinjective : Function.Injective fun t : IntegerType => QualType.builtin t.spelling :=
    fun _ _ => IntegerType.builtin_spelling_injective
  rw [htoken, numberType?_of_marked hother (.inr hhex), htype,
    (Option.map_injective hinjective).eq_iff]
  exact Suffix.firstType?_true_eq_iff (value_le_decimalReading hradix)

/-- The number 2³² - 1 in octal, with the suffix `u`. -/
def octalWord : IntegerLiteral where
  radix := .octal
  digits := 3 :: List.replicate 10 7
  suffix := ⟨true, .absent⟩
  digits_lt := by decide
  digits_ne_nil := by decide
  leading_zero := by decide

/-- The same number in hexadecimal, with the same suffix. -/
def hexadecimalWord : IntegerLiteral where
  radix := .hexadecimal
  digits := List.replicate 8 15
  suffix := ⟨true, .absent⟩
  digits_lt := by decide
  digits_ne_nil := by decide
  leading_zero := by decide

theorem octalWord_spells : octalWord.Spells "037777777777u" :=
  ⟨[], [], "037777777777u".toList, "037777777777u".toList, by decide, by decide, by decide,
    by decide, by decide⟩

theorem hexadecimalWord_spells : hexadecimalWord.Spells "0xFFFFFFFFu" :=
  ⟨[], [], "0xFFFFFFFFu".toList, "0xffffffffu".toList, by decide, by decide, by decide,
    by decide, by decide⟩

-- In decimal the digits give more than 32 bits can hold.
theorem octalWord_typed :
    numberType? "037777777777u" = some (.builtin "unsigned long") ∧
      numberType? "037777777777u" ≠ numberType? "0xFFFFFFFFu" := by
  obtain ⟨htype, hsame⟩ := numberType?_of_suffixedOctal octalWord_spells rfl (by decide)
  refine ⟨?_, fun hagree => ?_⟩
  · rw [htype]
    decide
  · have hlisted := (hsame _ _ hexadecimalWord_spells rfl (by decide) rfl).mp hagree
    exact absurd (hlisted .unsignedInt (by decide)).2 (by decide)

end WidthCheck.Literal
