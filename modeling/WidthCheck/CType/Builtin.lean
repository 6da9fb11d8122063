import WidthCheck.CType.Basic
import WidthCheck.Text.Find

/-!
# Builtin and standard integer types

Canonical spellings of sequences of builtin type keywords (`long int` and `signed long` are both
`long`), and the names that denote integer types in every program.
-/

namespace WidthCheck

namespace Builtin

/-- The keywords that may name a type by themselves. -/
def baseKeywords : List String :=
  ["void", "bool", "char", "wchar_t", "char8_t", "char16_t", "char32_t", "int", "float", "double",
    "__int128"]

/-- The keywords that set the width or the sign of a type. -/
def modifiers : List String := ["long", "short", "signed", "unsigned"]

/-- The keywords that may occur in the spelling of a builtin type. -/
def keywords : List String := modifiers ++ baseKeywords

/-- The spelling of an integer type from its width and sign. -/
def integerSpelling (longs : Nat) (short unsigned : Bool) : String :=
  if short then (if unsigned then "unsigned short" else "short")
  else match longs with
    | 0 => if unsigned then "unsigned int" else "int"
    | 1 => if unsigned then "unsigned long" else "long"
    | _ => if unsigned then "unsigned long long" else "long long"

/-- The spelling of the type with this base keyword, if any, and these modifiers. -/
def spelling (base : Option String) (longs : Nat) (short signed unsigned : Bool) : String :=
  match base with
  | none => integerSpelling longs short unsigned
  | some word =>
      if word = "int" then integerSpelling longs short unsigned
      else if word = "char" then
        if unsigned then "unsigned char" else if signed then "signed char" else "char"
      else if word = "double" then (if 0 < longs then "long double" else "double")
      else if word = "__int128" then (if unsigned then "unsigned __int128" else "__int128")
      else word

/-- What has been read of a sequence of type keywords. -/
structure Tally where
  base : Option String := none
  longs : Nat := 0
  short : Bool := false
  signed : Bool := false
  unsigned : Bool := false
deriving DecidableEq, Repr

namespace Tally

/-- Reads one more word. No type has two base keywords, or a word that is no keyword. -/
def add? (tally : Tally) (word : String) : Option Tally :=
  if word = "long" then some { tally with longs := tally.longs + 1 }
  else if word = "short" then some { tally with short := true }
  else if word = "signed" then some { tally with signed := true }
  else if word = "unsigned" then some { tally with unsigned := true }
  else if tally.base = none ∧ keywords.contains word then some { tally with base := some word }
  else none

def spelling (tally : Tally) : String :=
  Builtin.spelling tally.base tally.longs tally.short tally.signed tally.unsigned

end Tally

/-- The canonical spelling of a sequence of type keywords. There is none if a word cannot be read,
and none for the empty sequence. -/
def canonical? (words : List String) : Option String := do
  let tally ← words.foldlM Tally.add? {}
  if tally = {} then none else some tally.spelling

/-- The canonical spellings of the integer types. `bool` and the character types count. -/
def integers : List String :=
  ["bool", "char", "signed char", "unsigned char", "wchar_t", "char8_t", "char16_t", "char32_t",
    "short", "unsigned short", "int", "unsigned int", "long", "unsigned long", "long long",
    "unsigned long long", "__int128", "unsigned __int128"]

def isInteger (spelling : String) : Bool := integers.contains spelling

/-- The integer types that a unary arithmetic operator turns into `int`. -/
def promoted : List String :=
  ["bool", "char", "signed char", "unsigned char", "short", "unsigned short", "char8_t",
    "char16_t", "wchar_t"]

end Builtin

/-- The type of a unary arithmetic expression from the type of its operand. -/
def QualType.promote : QualType → QualType
  | .base .builtin name q =>
      if Builtin.promoted.contains name then builtin "int" else (base .builtin name q).unqualified
  | t => t.unqualified

namespace StandardAlias

/-- The standard integer aliases whose name gives no width. -/
def unsized : List String :=
  ["size_t", "ssize_t", "ptrdiff_t", "intptr_t", "uintptr_t", "intmax_t", "uintmax_t"]

/-- Drops `pattern` in front if it is there. -/
def dropFront (pattern cs : List Char) : List Char := (pattern.isPrefixOf? cs).getD cs

/-- Whether a name is that of a standard integer alias with a width: `int32_t`, `uint8_t`,
`int_least16_t`, `uint_fast64_t`. -/
def isSized (name : List Char) : Bool :=
  match "int".toList.isPrefixOf? (dropFront ['u'] name) with
  | none => false
  | some rest =>
      let width := match "_least".toList.isPrefixOf? rest with
        | some width => width
        | none => dropFront "_fast".toList rest
      ["8_t", "16_t", "32_t", "64_t"].contains (String.ofList width)

end StandardAlias

/-- Whether a name is that of a standard integer alias, with or without `::` and `std::`. -/
def isStandardIntegerAlias (name : String) : Bool :=
  let bare := StandardAlias.dropFront "std::".toList (Text.dropPairs ':' ':' name.toList)
  StandardAlias.unsized.contains (String.ofList bare) || StandardAlias.isSized bare

end WidthCheck
