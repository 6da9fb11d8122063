/-!
# Qualifiers

The qualifiers `const` and `volatile` of a type, and the keywords that write them.
-/

namespace WidthCheck

/-- A set of type qualifiers. -/
structure Quals where
  isConst : Bool := false
  isVolatile : Bool := false
deriving DecidableEq, Repr, Inhabited

namespace Quals

/-- No qualifier. -/
def none : Quals := {}

/-- The single qualifier `const`. -/
def const : Quals := { isConst := true }

/-- The single qualifier `volatile`. -/
def volatile : Quals := { isVolatile := true }

def isEmpty (q : Quals) : Bool := !q.isConst && !q.isVolatile

/-- The union of two sets. -/
def merge (q r : Quals) : Quals :=
  { isConst := q.isConst || r.isConst, isVolatile := q.isVolatile || r.isVolatile }

/-- What a declaration specifier adds to the qualifiers, or `none` if the word is part of the
spelling of the type. `constexpr` and `consteval` imply `const`; `constinit`, `mutable` and
`restrict` add nothing. -/
def ofWord? (word : String) : Option Quals :=
  if word = "const" ∨ word = "constexpr" ∨ word = "consteval" then some const
  else if word = "volatile" then some volatile
  else if word = "constinit" ∨ word = "mutable" ∨ word = "__restrict" ∨ word = "__restrict__" ∨
      word = "restrict" then some none
  else Option.none

/-- The union of what the words add. -/
def ofWords (words : List String) : Quals :=
  (words.filterMap ofWord?).foldl merge none

/-- The qualifiers as they are printed. -/
def spelling (q : Quals) : List Char :=
  match q.isConst, q.isVolatile with
  | true, true => "const volatile".toList
  | true, false => "const".toList
  | false, true => "volatile".toList
  | false, false => []

@[simp] theorem merge_none (q : Quals) : q.merge none = q := by
  simp [merge, none]

@[simp] theorem none_merge (q : Quals) : none.merge q = q := by
  simp [merge, none]

theorem merge_assoc (q r s : Quals) : (q.merge r).merge s = q.merge (r.merge s) := by
  simp [merge, Bool.or_assoc]

end Quals

end WidthCheck
