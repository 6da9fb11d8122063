import WidthCheck.Text.Blank
import WidthCheck.Toml.Value

/-!
# Numbers, dates and truth values of TOML

Each of them is one token: a run of letters, digits and the signs `+ - . : _`. A date and a time
of day may also be two tokens with a space between them.
-/

namespace WidthCheck.Toml

/-- Whether a character can be part of a number, a date or a truth value. -/
def isTokenChar (c : Char) : Bool :=
  c.isAlphanum || c == '+' || c == '-' || c == '.' || c == ':' || c == '_'

/-! ## Integers -/

/-- One digit or more, with single underscores between digits. -/
def isDigitGroup (isDigit : Char → Bool) (cs : List Char) : Bool :=
  (Text.splitWhere (· == '_') cs).all fun piece => piece != [] && piece.all isDigit

/-- The value of a digit in a radix up to sixteen. -/
def digitValue (c : Char) : Nat :=
  if c.isDigit then c.toNat - '0'.toNat
  else if c.isLower then c.toNat - 'a'.toNat + 10
  else c.toNat - 'A'.toNat + 10

/-- The value of digits in a radix; underscores do not count. -/
def groupValue (radix : Nat) (cs : List Char) : Nat :=
  (cs.filter (· ≠ '_')).foldl (fun value c => value * radix + digitValue c) 0

def isHexDigit (c : Char) : Bool :=
  c.isDigit || ('a' ≤ c && c ≤ 'f') || ('A' ≤ c && c ≤ 'F')

/-- Integers lie below this bound and not below its negative. -/
def intLimit : Int := Nat.pow 2 63

def checkedInt (n : Int) : Option Value :=
  if -intLimit ≤ n ∧ n < intLimit then some (.int n) else none

/-- Whether digits are those of a decimal integer: no zero in front of others. -/
def isDecimal (cs : List Char) : Bool :=
  isDigitGroup Char.isDigit cs && (cs.head? != some '0' || cs == ['0'])

/-- Digits with a radix mark. -/
def radixInt (radix : Nat) (isDigit : Char → Bool) (cs : List Char) : Option Value :=
  if isDigitGroup isDigit cs then checkedInt (groupValue radix cs) else none

/-- Splits an optional sign from a token. -/
def splitSign : List Char → Bool × List Char
  | '-' :: rest => (true, rest)
  | '+' :: rest => (false, rest)
  | cs => (false, cs)

def integer? (token : List Char) : Option Value :=
  match token with
  | '0' :: 'x' :: rest => radixInt 16 isHexDigit rest
  | '0' :: 'o' :: rest => radixInt 8 (fun c => '0' ≤ c && c ≤ '7') rest
  | '0' :: 'b' :: rest => radixInt 2 (fun c => c == '0' || c == '1') rest
  | _ =>
      let (negative, digits) := splitSign token
      if isDecimal digits then
        let value : Int := groupValue 10 digits
        checkedInt (if negative then -value else value)
      else none

/-! ## Floating point numbers -/

/-- The least number that is rounded to infinity in double precision. -/
def floatLimit : Nat := Nat.pow 2 1024 - Nat.pow 2 970

/-- Whether `mantissa` times ten to the power `exponent` is too large for double precision. Far
from the limit the number of digits decides. -/
def isTooLarge (mantissa : Nat) (exponent : Int) : Bool :=
  if mantissa = 0 then false
  else
    let magnitude : Int := (toString mantissa).length + exponent
    if magnitude > 400 then true
    else if magnitude < 300 then false
    else if 0 ≤ exponent then floatLimit ≤ mantissa * Nat.pow 10 exponent.toNat
    else floatLimit * Nat.pow 10 (-exponent).toNat ≤ mantissa

/-- The exponent of a number, after its mark. -/
def exponent? (cs : List Char) : Option Int :=
  let (negative, digits) := splitSign cs
  if isDigitGroup Char.isDigit digits then
    let value : Int := groupValue 10 digits
    some (if negative then -value else value)
  else none

/-- The fraction digits and the exponent of a number, of which one at least is written. -/
def fractionAndExponent? (cs : List Char) : Option (List Char × Int) :=
  let isDigitLike := fun (c : Char) => c.isDigit || c == '_'
  match cs with
  | '.' :: rest =>
      let fraction := rest.takeWhile isDigitLike
      if isDigitGroup Char.isDigit fraction then
        match rest.dropWhile isDigitLike with
        | [] => some (fraction, 0)
        | 'e' :: more => (exponent? more).map (fraction, ·)
        | 'E' :: more => (exponent? more).map (fraction, ·)
        | _ => none
      else none
  | 'e' :: more => (exponent? more).map ([], ·)
  | 'E' :: more => (exponent? more).map ([], ·)
  | _ => none

def float? (token : List Char) : Option Value :=
  let (negative, body) := splitSign token
  if body = "inf".toList ∨ body = "nan".toList then some (.float (String.ofList token))
  else
    let isDigitLike := fun (c : Char) => c.isDigit || c == '_'
    let whole := body.takeWhile isDigitLike
    if isDecimal whole then
      match fractionAndExponent? (body.dropWhile isDigitLike) with
      | some (fraction, exponent) =>
          let mantissa := groupValue 10 (whole ++ fraction)
          let places := (fraction.filter (· ≠ '_')).length
          if !negative && isTooLarge mantissa (exponent - places) then none
          else some (.float (String.ofList token))
      | none => none
    else none

/-! ## Dates and times -/

/-- Exactly `count` digits: their value and the rest. -/
def takeDigits (count : Nat) (cs : List Char) : Option (Nat × List Char) :=
  let digits := cs.take count
  if digits.length = count ∧ digits.all Char.isDigit then
    some (groupValue 10 digits, cs.drop count)
  else none

/-- A number of two digits between the bounds. -/
def takeTwo (low high : Nat) (cs : List Char) : Option (Nat × List Char) := do
  let (n, rest) ← takeDigits 2 cs
  if low ≤ n ∧ n ≤ high then some (n, rest) else none

/-- Drops a character that must come next. -/
def expect (c : Char) : List Char → Option (List Char)
  | d :: rest => if c = d then some rest else none
  | [] => none

def daysIn (year month : Nat) : Nat :=
  if month = 2 then
    if year % 4 = 0 ∧ (year % 100 ≠ 0 ∨ year % 400 = 0) then 29 else 28
  else if month = 4 ∨ month = 6 ∨ month = 9 ∨ month = 11 then 30
  else 31

/-- What follows a date. -/
def afterDate (cs : List Char) : Option (List Char) := do
  let (year, cs) ← takeDigits 4 cs
  let cs ← expect '-' cs
  let (month, cs) ← takeTwo 1 12 cs
  let cs ← expect '-' cs
  let (day, cs) ← takeTwo 1 31 cs
  if day ≤ daysIn year month then some cs else none

/-- What follows the fraction of a second, if one is written. -/
def afterFraction : List Char → Option (List Char)
  | '.' :: cs =>
      if (cs.takeWhile Char.isDigit).isEmpty then none else some (cs.dropWhile Char.isDigit)
  | cs => some cs

/-- What follows a time of day. -/
def afterTime (cs : List Char) : Option (List Char) := do
  let (_, cs) ← takeTwo 0 23 cs
  let cs ← expect ':' cs
  let (_, cs) ← takeTwo 0 59 cs
  let cs ← expect ':' cs
  let (_, cs) ← takeTwo 0 60 cs
  afterFraction cs

/-- What follows the offset from universal time, if one is written. -/
def afterOffset : List Char → Option (List Char)
  | 'Z' :: cs => some cs
  | 'z' :: cs => some cs
  | [] => some []
  | sign :: cs => do
      if sign = '+' ∨ sign = '-' then
        let (_, cs) ← takeTwo 0 23 cs
        let cs ← expect ':' cs
        let (_, cs) ← takeTwo 0 59 cs
        some cs
      else none

def isDate (token : List Char) : Bool := afterDate token == some []

/-- Whether a text is a time of day with an optional offset. -/
def isTimeWithOffset (cs : List Char) : Bool := ((afterTime cs).bind afterOffset) == some []

/-- Whether a token is a date with a time after the letter `T`. -/
def isDateTime (token : List Char) : Bool :=
  match afterDate token with
  | some ('T' :: time) => isTimeWithOffset time
  | some ('t' :: time) => isTimeWithOffset time
  | _ => false

def isTime (token : List Char) : Bool := afterTime token == some []

/-! ## Tokens -/

/-- The value of a single token. -/
def tokenValue? (token : List Char) : Option Value :=
  if token = "true".toList then some (.bool true)
  else if token = "false".toList then some (.bool false)
  else if isDate token || isDateTime token || isTime token then
    some (.datetime (String.ofList token))
  else (float? token).or (integer? token)

/-- Reads a number, a date or a truth value. After a date, a space and a digit start a time. -/
def readScalar (cs : List Char) : Option (Value × List Char) :=
  let token := cs.takeWhile isTokenChar
  let rest := cs.dropWhile isTokenChar
  match isDate token, rest with
  | true, ' ' :: c :: more =>
      if c.isDigit then
        let time := (c :: more).takeWhile isTokenChar
        if isTimeWithOffset time then
          some (.datetime (String.ofList (token ++ ' ' :: time)), (c :: more).dropWhile isTokenChar)
        else none
      else some (.datetime (String.ofList token), rest)
  | _, _ => (tokenValue? token).map (·, rest)

end WidthCheck.Toml
