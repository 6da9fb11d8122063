import WidthCheck.CType.Basic
import WidthCheck.Text.Blank

/-!
# Types of literals

The types of number and character tokens where `int` has 32 bits and `long` and `long long` have
64.
-/

namespace WidthCheck.Literal

/-- The base a number is written in. -/
inductive Radix where
  | binary
  | octal
  | decimal
  | hexadecimal
deriving DecidableEq, Repr

def Radix.value : Radix → Nat
  | .binary => 2
  | .octal => 8
  | .decimal => 10
  | .hexadecimal => 16

/-- The letters and digits of a number token in lower case: leading signs and digit separators are
dropped. -/
def normalize (token : List Char) : List Char :=
  let unsigned := Text.trimLeft (token.dropWhile fun c => c == '-' || c == '+')
  (unsigned.filter (· ≠ '\x27')).map Char.toLower

/-- The radix of a normalized number token and what follows its mark. A leading zero marks an
octal number only if nothing but digits follows. -/
def splitRadix : List Char → Radix × List Char
  | '0' :: 'x' :: body => (.hexadecimal, body)
  | '0' :: 'b' :: body => (.binary, body)
  | '0' :: c :: body =>
      if (c :: body).all Char.isDigit then (.octal, c :: body) else (.decimal, '0' :: c :: body)
  | text => (.decimal, text)

/-- Whether a number with this radix and body is a floating point number. -/
def isFloating (radix : Radix) (body : List Char) : Bool :=
  match radix with
  | .hexadecimal => body.contains 'p'
  | .decimal => body.contains '.' || body.contains 'e'
  | _ => false

/-- The type of a floating point number from its suffix. -/
def floatingType (body : List Char) : QualType :=
  if body.getLast? = some 'f' ∧ ¬ body.contains 'x' then .builtin "float"
  else if body.getLast? = some 'l' then .builtin "long double"
  else .builtin "double"

/-- The value of a lower case digit, up to fifteen. -/
def digitValue? (c : Char) : Option Nat :=
  if c.isDigit then some (c.toNat - '0'.toNat)
  else if 'a' ≤ c ∧ c ≤ 'f' then some (c.toNat - 'a'.toNat + 10)
  else none

/-- The value of digits in a radix, continuing from the value of those before them. -/
def digitsValue? (radix : Nat) : List Char → Nat → Option Nat
  | [], value => some value
  | c :: cs, value =>
      match digitValue? c with
      | some d => if d < radix then digitsValue? radix cs (value * radix + d) else none
      | none => none

/-- The largest value a number token may have, plus one. -/
def valueLimit : Nat := Nat.pow 2 128

/-- The value of at least one digit, with an optional plus sign in front. -/
def numberValue? (radix : Radix) (digits : List Char) : Option Nat :=
  let unsigned := match digits with
    | '+' :: rest => rest
    | _ => digits
  if unsigned = [] then none
  else match digitsValue? radix.value unsigned 0 with
    | some value => if value < valueLimit then some value else none
    | none => none

/-- Whether a letter starts the suffix of an integer. -/
def isSuffixStart (c : Char) : Bool := c == 'u' || c == 'l' || c == 'z'

/-- A type an integer token may have. -/
structure Candidate where
  spelling : String
  bits : Nat
  unsigned : Bool
deriving DecidableEq, Repr

/-- The largest value of a candidate type, plus one. -/
def Candidate.limit (c : Candidate) : Nat := Nat.pow 2 (if c.unsigned then c.bits else c.bits - 1)

/-- The types of integer tokens, the narrower first. -/
def candidates : List Candidate :=
  [⟨"int", 32, false⟩, ⟨"unsigned int", 32, true⟩, ⟨"long", 64, false⟩,
    ⟨"unsigned long", 64, true⟩, ⟨"long long", 64, false⟩, ⟨"unsigned long long", 64, true⟩]

/-- The types open to a token, in the order they are tried: with one `l` from `long` on, with more
from `long long` on; with `u` only the unsigned ones, and for decimal tokens without `u` only the
signed ones. -/
def openCandidates (radix : Radix) (unsigned : Bool) (longs : Nat) : List Candidate :=
  (candidates.drop (2 * min longs 2)).filter fun c =>
    if unsigned then c.unsigned else radix ≠ .decimal || !c.unsigned

/-- The type of an integer token: the first open type that can hold the value. A suffix with `z`
names the type of sizes. -/
def integerType? (radix : Radix) (body : List Char) : Option QualType :=
  let digits := body.takeWhile (!isSuffixStart ·)
  let suffix := body.dropWhile (!isSuffixStart ·)
  match numberValue? radix digits with
  | none => none
  | some value =>
      let unsigned := suffix.contains 'u'
      if suffix.contains 'z' then some (.named (if unsigned then "size_t" else "ssize_t"))
      else
        ((openCandidates radix unsigned (suffix.count 'l')).find? (value < ·.limit)).map
          fun c => .builtin c.spelling

/-- The type of a number token, or `none` if it is malformed or too large for every type. -/
def numberType? (token : String) : Option QualType :=
  let (radix, body) := splitRadix (normalize token.toList)
  if isFloating radix body then some (floatingType body) else integerType? radix body

/-- The type of a character token, from its encoding mark. -/
def charType (token : String) : QualType :=
  .builtin (match token.toList with
    | 'u' :: '8' :: _ => "char8_t"
    | 'u' :: _ => "char16_t"
    | 'U' :: _ => "char32_t"
    | 'L' :: _ => "wchar_t"
    | _ => "char")

end WidthCheck.Literal
