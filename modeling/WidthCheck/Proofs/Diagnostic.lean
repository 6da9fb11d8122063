import Mathlib.Data.Nat.Digits.Lemmas
import WidthCheck.Diagnostic
import WidthCheck.Proofs.Text.Words

/-!
# Message templates

A template is a row of segments: texts, whose percent signs are written twice, and places for
arguments. The message has the texts as they were before and the arguments at their places, and
what an argument brings along is not looked at again.
-/

namespace WidthCheck

/-- A part of a template: a text, or the place of the argument with a number. The number is
written in decimal digits and may have zeros in front. -/
inductive Segment where
  | literal (text : List Char)
  | placeholder (digits : List Char) (hne : digits ≠ [])
      (hdigits : ∀ c ∈ digits, c.isDigit = true)

namespace Segment

def escapeChar (c : Char) : List Char := if c = '%' then ['%', '%'] else [c]

def written : Segment → List Char
  | literal text => text.flatMap escapeChar
  | placeholder digits _ _ => '%' :: digits

/-- The number written by decimal digits, the first of them the highest. -/
def numberOf (digits : List Char) : Nat :=
  Nat.ofDigits 10 (digits.reverse.map fun c => c.toNat - '0'.toNat)

/-- The argument with a number. Numbers have 64 bits, so that no argument has a higher one. -/
def argument? (args : List DiagArg) (number : Nat) : Option DiagArg :=
  if number < 2 ^ 64 then args[number]? else none

/-- What a segment says. A place without an argument is kept as it is written. -/
def rendered (args : List DiagArg) : Segment → List Char
  | literal text => text
  | placeholder digits _ _ => (argument? args (numberOf digits)).elim ('%' :: digits) DiagArg.render

/-- Whether the digits of each placeholder end where the placeholder does. -/
def areSeparated : List Segment → Bool
  | [] => true
  | literal _ :: rest => areSeparated rest
  | placeholder _ _ _ :: rest =>
      !(rest.flatMap written).head?.any Char.isDigit && areSeparated rest

end Segment

namespace Diagnostic

open Segment

variable (args : List DiagArg)

/-! ## One step of the expansion -/

theorem expand_cons_of_ne {c : Char} (hc : c ≠ '%') (rest : List Char) :
    expand args (c :: rest) = c :: expand args rest := by
  rw [expand.eq_def]
  split <;> simp_all

theorem expand_percent (rest : List Char) :
    expand args ('%' :: '%' :: rest) = '%' :: expand args rest := by
  rw [expand]

theorem expand_digit {c : Char} (hc : c.isDigit = true) (rest : List Char) :
    expand args ('%' :: c :: rest) =
      expandIndex args (c :: rest.takeWhile Char.isDigit) ++
        expand args (rest.dropWhile Char.isDigit) := by
  have hpercent : c ≠ '%' := by
    rintro rfl
    exact absurd hc (by decide)
  rw [expand, if_pos hc]
  exact hpercent

/-! ## Segments -/

theorem expand_literal (text rest : List Char) :
    expand args (text.flatMap escapeChar ++ rest) = text ++ expand args rest := by
  induction text with
  | nil => rfl
  | cons c text ih =>
    rw [List.flatMap_cons, List.append_assoc, List.cons_append, ← ih, escapeChar]
    by_cases hc : c = '%'
    · subst hc
      exact expand_percent args _
    · rw [if_neg hc]
      exact expand_cons_of_ne args hc _

theorem foldl_decimal (digits : List Char) (value : Nat) :
    digits.foldl (fun value c => value * 10 + (c.toNat - '0'.toNat)) value =
      numberOf digits + 10 ^ digits.length * value := by
  induction digits generalizing value with
  | nil => simp [numberOf]
  | cons c digits ih =>
    rw [List.foldl_cons, ih, numberOf, numberOf, List.reverse_cons, List.map_append,
      List.map_singleton, Nat.ofDigits_append, List.length_map, List.length_reverse,
      Nat.ofDigits_singleton, List.length_cons, Nat.pow_succ]
    ring

theorem expandIndex_eq_rendered (digits : List Char) (hne : digits ≠ [])
    (hdigits : ∀ c ∈ digits, c.isDigit = true) :
    expandIndex args digits = (placeholder digits hne hdigits).rendered args := by
  have hvalue : decimalValue digits = numberOf digits := by
    rw [decimalValue, foldl_decimal, Nat.mul_zero, Nat.add_zero]
  have hargument : (if numberOf digits < indexLimit then args[numberOf digits]? else none) =
      argument? args (numberOf digits) := rfl
  rw [rendered, expandIndex, hvalue, hargument]
  cases argument? args (numberOf digits) <;> rfl

theorem expand_placeholder {digits : List Char} (hne : digits ≠ [])
    (hdigits : ∀ c ∈ digits, c.isDigit = true) {rest : List Char}
    (hrest : rest.head?.any Char.isDigit = false) :
    expand args ('%' :: digits ++ rest) =
      (placeholder digits hne hdigits).rendered args ++ expand args rest := by
  cases digits with
  | nil => exact absurd rfl hne
  | cons c digits =>
    obtain ⟨hc, htail⟩ := List.forall_mem_cons.mp hdigits
    have htake : (digits ++ rest).takeWhile Char.isDigit = digits := by
      rw [List.takeWhile_append_of_pos htail]
      cases rest with
      | nil => simp
      | cons d rest => simp_all
    have hdrop : (digits ++ rest).dropWhile Char.isDigit = rest := by
      rw [List.dropWhile_append_of_pos htail]
      cases rest with
      | nil => rfl
      | cons d rest => simp_all
    rw [List.cons_append, List.cons_append, expand_digit args hc, htake, hdrop,
      expandIndex_eq_rendered]

theorem expand_written {segments : List Segment} (h : areSeparated segments = true) :
    expand args (segments.flatMap written) = segments.flatMap (rendered args) := by
  induction segments with
  | nil => rw [List.flatMap_nil, List.flatMap_nil, expand]
  | cons segment rest ih =>
    rw [List.flatMap_cons, List.flatMap_cons]
    cases segment with
    | literal text =>
      rw [← ih h]
      exact expand_literal args text _
    | placeholder digits hne hdigits =>
      rw [areSeparated, Bool.and_eq_true, Bool.not_eq_true'] at h
      rw [← ih h.2]
      exact expand_placeholder args hne hdigits h.1

/-- The message of a template is what its segments say, one after the other. -/
theorem message_of_segments (location : Option Position) (segments : List Segment)
    (h : areSeparated segments = true) :
    message ⟨location, String.ofList (segments.flatMap written), args⟩ =
      String.ofList (segments.flatMap (rendered args)) := by
  rw [message, String.toList_ofList, expand_written args h]

/-- A percent sign stands before a placeholder and one after it, an argument looks like a
placeholder, and one number is too high for any argument. -/
def progressSegments : List Segment :=
  [.literal "100%".toList, .placeholder "0".toList (by decide) (by decide), .literal "% of ".toList,
    .placeholder "01".toList (by decide) (by decide),
    .placeholder "18446744073709551616".toList (by decide) (by decide)]

theorem message_progressSegments :
    areSeparated progressSegments = true ∧
      message ⟨none, "100%%%0%% of %01%18446744073709551616", [.text "%1", .decl "x"]⟩ =
        "100%%1% of 'x'%18446744073709551616" := by
  have hseparated : areSeparated progressSegments = true := by decide
  exact ⟨hseparated, message_of_segments [.text "%1", .decl "x"] none progressSegments hseparated⟩

end Diagnostic

end WidthCheck
