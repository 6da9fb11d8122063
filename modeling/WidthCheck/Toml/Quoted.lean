import WidthCheck.Toml.Value

/-!
# Strings of TOML

Four forms: basic strings with escapes and literal strings without, on one line or on several.
-/

namespace WidthCheck.Toml

/-- Whether a character may stand unescaped in a string or comment: no control character but the
tab. -/
def isTextChar (c : Char) : Bool := c == '\t' || (0x20 ≤ c.toNat && c.toNat != 0x7f)

def isSpace (c : Char) : Bool := c == ' ' || c == '\t'

/-- The character with this number in hexadecimal digits, if there is one. -/
def unicodeChar? (digits : List Char) : Option Char := do
  let value ← digits.foldlM
    (fun value c =>
      if c.isDigit then some (value * 16 + (c.toNat - '0'.toNat))
      else if 'a' ≤ c ∧ c ≤ 'f' then some (value * 16 + (c.toNat - 'a'.toNat + 10))
      else if 'A' ≤ c ∧ c ≤ 'F' then some (value * 16 + (c.toNat - 'A'.toNat + 10))
      else none) 0
  if value.isValidChar then some (Char.ofNat value) else none

/-- The character that a letter after a backslash stands for. -/
def simpleEscape? : Char → Option Char
  | 'b' => some '\x08'
  | 't' => some '\t'
  | 'n' => some '\n'
  | 'f' => some '\x0c'
  | 'r' => some '\r'
  | '"' => some '"'
  | '\\' => some '\\'
  | _ => none

/-- Puts a character in front of what was read. -/
def push (c : Char) (read : Option (List Char × List Char)) : Option (List Char × List Char) :=
  read.map fun (text, rest) => (c :: text, rest)

/-- Reads a basic string after its opening quote. -/
def readBasic : List Char → Option (List Char × List Char)
  | '"' :: rest => some ([], rest)
  | '\\' :: 'u' :: a :: b :: c :: d :: rest => do
      push (← unicodeChar? [a, b, c, d]) (readBasic rest)
  | '\\' :: 'U' :: a :: b :: c :: d :: e :: f :: g :: h :: rest => do
      push (← unicodeChar? [a, b, c, d, e, f, g, h]) (readBasic rest)
  | '\\' :: c :: rest => do push (← simpleEscape? c) (readBasic rest)
  | c :: rest => if isTextChar c then push c (readBasic rest) else none
  | [] => none

/-- Reads a literal string after its opening quote. -/
def readLiteral : List Char → Option (List Char × List Char)
  | '\x27' :: rest => some ([], rest)
  | c :: rest => if isTextChar c then push c (readLiteral rest) else none
  | [] => none

/-- Whether only spaces stand before the end of the line. -/
def endsLine (cs : List Char) : Bool :=
  match cs.dropWhile isSpace with
  | '\n' :: _ => true
  | '\r' :: '\n' :: _ => true
  | _ => false

/-- Reads a basic string on several lines after its opening quotes. Up to two quotes may stand
before the closing ones. While `skipping`, after a backslash at the end of a line, spaces and line
ends are passed over. -/
def readBasicLines (skipping : Bool) : List Char → Option (List Char × List Char)
  | '"' :: '"' :: '"' :: '"' :: '"' :: rest =>
      if rest.head? = some '"' then none else some (['"', '"'], rest)
  | '"' :: '"' :: '"' :: '"' :: rest => some (['"'], rest)
  | '"' :: '"' :: '"' :: rest => some ([], rest)
  | '\\' :: 'u' :: a :: b :: c :: d :: rest => do
      push (← unicodeChar? [a, b, c, d]) (readBasicLines false rest)
  | '\\' :: 'U' :: a :: b :: c :: d :: e :: f :: g :: h :: rest => do
      push (← unicodeChar? [a, b, c, d, e, f, g, h]) (readBasicLines false rest)
  | '\\' :: c :: rest =>
      if endsLine (c :: rest) then readBasicLines true (c :: rest)
      else do push (← simpleEscape? c) (readBasicLines false rest)
  | '\r' :: '\n' :: rest =>
      if skipping then readBasicLines true rest else push '\n' (readBasicLines false rest)
  | '\n' :: rest =>
      if skipping then readBasicLines true rest else push '\n' (readBasicLines false rest)
  | c :: rest =>
      if skipping && isSpace c then readBasicLines true rest
      else if isTextChar c then push c (readBasicLines false rest)
      else none
  | [] => none

/-- Reads a literal string on several lines after its opening quotes. -/
def readLiteralLines : List Char → Option (List Char × List Char)
  | '\x27' :: '\x27' :: '\x27' :: '\x27' :: '\x27' :: rest =>
      if rest.head? = some '\x27' then none else some (['\x27', '\x27'], rest)
  | '\x27' :: '\x27' :: '\x27' :: '\x27' :: rest => some (['\x27'], rest)
  | '\x27' :: '\x27' :: '\x27' :: rest => some ([], rest)
  | '\r' :: '\n' :: rest => push '\n' (readLiteralLines rest)
  | '\n' :: rest => push '\n' (readLiteralLines rest)
  | c :: rest => if isTextChar c then push c (readLiteralLines rest) else none
  | [] => none

/-- Drops the line end right after opening quotes. -/
def dropFirstLineEnd : List Char → List Char
  | '\n' :: rest => rest
  | '\r' :: '\n' :: rest => rest
  | cs => cs

/-- Reads a string of any of the four forms. -/
def readString : List Char → Option (List Char × List Char)
  | '"' :: '"' :: '"' :: rest => readBasicLines false (dropFirstLineEnd rest)
  | '\x27' :: '\x27' :: '\x27' :: rest => readLiteralLines (dropFirstLineEnd rest)
  | '"' :: rest => readBasic rest
  | '\x27' :: rest => readLiteral rest
  | _ => none

end WidthCheck.Toml
