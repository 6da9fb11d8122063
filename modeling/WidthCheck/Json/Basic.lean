/-!
# JSON values

Values, their form over several lines, and reading a record from a value.
-/

namespace WidthCheck

/-- A JSON value. Members of objects keep their order. -/
inductive Json where
  | null
  | bool (value : Bool)
  /-- The number `mantissa` divided by ten to the power `exponent`. -/
  | num (mantissa : Int) (exponent : Nat)
  | str (value : String)
  | arr (items : List Json)
  | obj (members : List (String × Json))
deriving Inhabited

namespace Json

def ofNat (n : Nat) : Json := .num n 0

/-! ## Writing -/

/-- A lower case hexadecimal digit. -/
def hexDigit (n : Nat) : Char := ("0123456789abcdef".toList[n]?).getD '0'

/-- A character inside a string. -/
def escapeChar (c : Char) : List Char :=
  if c = '"' then ['\\', '"']
  else if c = '\\' then ['\\', '\\']
  else if c = '\x08' then ['\\', 'b']
  else if c = '\x0c' then ['\\', 'f']
  else if c = '\n' then ['\\', 'n']
  else if c = '\r' then ['\\', 'r']
  else if c = '\t' then ['\\', 't']
  else if c.toNat < 0x20 then
    ['\\', 'u', '0', '0', hexDigit (c.toNat / 16), hexDigit (c.toNat % 16)]
  else [c]

/-- A string in quotes. -/
def quote (s : String) : String := String.ofList ('"' :: s.toList.flatMap escapeChar ++ ['"'])

/-- A number in decimal digits. -/
def numberText (mantissa : Int) (exponent : Nat) : String :=
  if exponent = 0 then toString mantissa else toString mantissa ++ "e-" ++ toString exponent

/-- The start of a line at this depth. -/
def indent (depth : Nat) : String := String.ofList (List.replicate (2 * depth) ' ')

/-- Items one on a line, at this depth, between brackets. -/
def block (opening closing : String) (depth : Nat) (items : List String) : String :=
  if items = [] then opening ++ closing
  else
    opening ++ "\n" ++ ",\n".intercalate (items.map (indent (depth + 1) ++ ·)) ++ "\n" ++
      indent depth ++ closing

mutual

/-- A value over several lines, two spaces for each depth. -/
def prettyAt (depth : Nat) : Json → String
  | .null => "null"
  | .bool true => "true"
  | .bool false => "false"
  | .num mantissa exponent => numberText mantissa exponent
  | .str value => quote value
  | .arr items => block "[" "]" depth (prettyItems (depth + 1) items)
  | .obj members => block "\x7b" "\x7d" depth (prettyMembers (depth + 1) members)

def prettyItems (depth : Nat) : List Json → List String
  | [] => []
  | item :: rest => prettyAt depth item :: prettyItems depth rest

def prettyMembers (depth : Nat) : List (String × Json) → List String
  | [] => []
  | (name, value) :: rest =>
      (quote name ++ ": " ++ prettyAt depth value) :: prettyMembers depth rest

end

/-- A value over several lines. -/
def pretty (j : Json) : String := prettyAt 0 j

/-! ## Reading -/

/-- The fields of a record, in order: from an object by name, from an array by place. An object may
have other members; an array must not have more items. A field that is not there is `none`. -/
def fields? (names : List String) : Json → Option (List (Option Json))
  | .obj members => some (names.map fun name => members.lookup name)
  | .arr items =>
      if items.length ≤ names.length then
        some (items.map some ++ List.replicate (names.length - items.length) none)
      else none
  | _ => none

def str? : Json → Option String
  | .str value => some value
  | _ => none

/-- The natural numbers that can be read are below this one. -/
def natLimit : Nat := Nat.pow 2 64

def nat? : Json → Option Nat
  | .num (.ofNat n) 0 => if n < natLimit then some n else none
  | _ => none

def items? : Json → Option (List Json)
  | .arr items => some items
  | _ => none

end Json

end WidthCheck
