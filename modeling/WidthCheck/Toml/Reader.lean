import WidthCheck.Toml.Quoted
import WidthCheck.Toml.Scalar
import WidthCheck.Toml.Tables

/-!
# Reading TOML

Reads a document line by line. Arrays and inline tables may be nested only so deep, and keys may
have only so many parts.
-/

namespace WidthCheck.Toml

/-- Keys have fewer parts and values are nested less deep than this. -/
def nestingLimit : Nat := 80

def skipSpaces (cs : List Char) : List Char := cs.dropWhile isSpace

/-! ## Line ends and comments -/

/-- Drops a comment, if one starts here. -/
def skipComment : List Char → List Char
  | '#' :: rest => rest.dropWhile isTextChar
  | cs => cs

/-- Drops the end of a line; the end of the text ends the last line. -/
def lineEnd : List Char → Option (List Char)
  | [] => some []
  | '\n' :: rest => some rest
  | '\r' :: '\n' :: rest => some rest
  | _ => none

/-- Drops what may follow a definition on its line. -/
def finishLine (cs : List Char) : Option (List Char) := lineEnd (skipComment (skipSpaces cs))

/-- Drops spaces, line ends and comments, the latter with the end of their line. -/
def skipLines (inComment : Bool) : List Char → Option (List Char)
  | '\n' :: rest => skipLines false rest
  | '\r' :: '\n' :: rest => skipLines false rest
  | c :: rest =>
      if inComment then (if isTextChar c then skipLines true rest else none)
      else if isSpace c then skipLines false rest
      else if c = '#' then skipLines true rest
      else some (c :: rest)
  | [] => if inComment then none else some []

/-! ## Keys -/

def isBareKeyChar (c : Char) : Bool := c.isAlphanum || c == '_' || c == '-'

/-- Reads one part of a key. -/
def readKeyPart : List Char → Option (List Char × List Char)
  | '"' :: rest => readBasic rest
  | '\x27' :: rest => readLiteral rest
  | cs =>
      let name := cs.takeWhile isBareKeyChar
      if name = [] then none else some (name, cs.dropWhile isBareKeyChar)

/-- Reads the parts of a key, at most `count` of them, with spaces around each. -/
def readKeyParts : Nat → List Char → Option (List String × List Char)
  | 0, _ => none
  | count + 1, cs => do
      let (part, rest) ← readKeyPart (skipSpaces cs)
      match skipSpaces rest with
      | '.' :: more => do
          let (parts, rest) ← readKeyParts count more
          return (String.ofList part :: parts, rest)
      | rest => return ([String.ofList part], rest)

/-- Reads a key and the spaces around it. -/
def readKey (cs : List Char) : Option (Key × List Char) := do
  let (parts, rest) ← readKeyParts (nestingLimit - 1) cs
  return ({ path := parts.dropLast, last := parts.getLast?.getD "" }, rest)

/-! ## Values -/

/-- Reads a value from the front of a text. -/
abbrev ValueReader := List Char → Option (Value × List Char)

/-- Reads the items of an array up to its closing bracket. `count` bounds their number. -/
def readItems (inner : ValueReader) : Nat → List Char → Option (List Value × List Char)
  | 0, _ => none
  | count + 1, cs => do
      match ← skipLines false cs with
      | ']' :: rest => return ([], rest)
      | cs =>
          let (item, rest) ← inner cs
          match ← skipLines false rest with
          | ']' :: rest => return ([item], rest)
          | ',' :: rest => do
              let (items, rest) ← readItems inner count rest
              return (item :: items, rest)
          | _ => none

/-- Reads a key, the sign `=` and a value. -/
def readPair (inner : ValueReader) (cs : List Char) : Option ((Key × Value) × List Char) := do
  let (key, rest) ← readKey cs
  let rest ← expect '=' rest
  let (value, rest) ← inner (skipSpaces rest)
  return ((key, value), rest)

/-- Reads the definitions of an inline table up to its closing brace. `count` bounds their
number. -/
def readPairs (inner : ValueReader) : Nat → List Char → Option (List (Key × Value) × List Char)
  | 0, _ => none
  | count + 1, cs => do
      let (pair, rest) ← readPair inner cs
      match skipSpaces rest with
      | '\x7d' :: rest => return ([pair], rest)
      | ',' :: rest => do
          let (pairs, rest) ← readPairs inner count rest
          return (pair :: pairs, rest)
      | _ => none

/-- Reads an inline table after its opening brace. -/
def readInline (inner : ValueReader) (cs : List Char) : Option (Value × List Char) := do
  match skipSpaces cs with
  | '\x7d' :: rest => return (.table [], rest)
  | cs =>
      let (pairs, rest) ← readPairs inner cs.length cs
      return (← inlineTable? pairs, rest)

/-- Reads a value in which arrays and inline tables are nested at most `depth` deep. -/
def readValue : Nat → ValueReader
  | depth, cs =>
      match cs, depth with
      | '[' :: rest, depth + 1 => do
          let (items, rest) ← readItems (readValue depth) cs.length rest
          return (.arr items, rest)
      | '\x7b' :: rest, depth + 1 => readInline (readValue depth) rest
      | '"' :: _, _ => (readString cs).map fun (text, rest) => (.str (String.ofList text), rest)
      | '\x27' :: _, _ => (readString cs).map fun (text, rest) => (.str (String.ofList text), rest)
      | _, _ => readScalar cs

/-! ## Documents -/

/-- Reads a header after its opening bracket or brackets; `closing` must follow the key. -/
def readHeader (closing : List Char) (cs : List Char) : Option (Key × List Char) := do
  let (key, rest) ← readKey cs
  let rest ← closing.isPrefixOf? rest
  return (key, ← finishLine rest)

/-- Reads one definition with the rest of its line. -/
def readExpression : List Char → Option (Expression × List Char)
  | '[' :: '[' :: rest => (readHeader [']', ']'] rest).map fun (key, rest) => (.rowHeader key, rest)
  | '[' :: rest => (readHeader [']'] rest).map fun (key, rest) => (.header key, rest)
  | cs => do
      let ((key, value), rest) ← readPair (readValue (nestingLimit - 1)) cs
      return (.pair key value, ← finishLine rest)

/-- Reads the definitions of a document. `count` bounds the number of its lines. -/
def readExpressions : Nat → List Char → Option (List Expression)
  | 0, _ => none
  | count + 1, cs =>
      match skipSpaces cs with
      | [] => some []
      | '#' :: rest => do readExpressions count (← lineEnd (skipComment ('#' :: rest)))
      | '\n' :: rest => readExpressions count rest
      | '\r' :: '\n' :: rest => readExpressions count rest
      | cs => do
          let (expression, rest) ← readExpression cs
          return expression :: (← readExpressions count rest)

/-- Drops a byte order mark. -/
def dropMark : List Char → List Char
  | '\ufeff' :: rest => rest
  | cs => cs

/-- The table of a TOML document, if the text is one. -/
def parse? (text : String) : Option Value := do
  let cs := dropMark text.toList
  documentTable? (← readExpressions (cs.length + 1) cs)

end WidthCheck.Toml
