import WidthCheck.Text.Blank

/-!
# Texts as bytes

The UTF-8 form of texts, and bytes that may or may not be the form of a text. Bytes are cut into
lines before they are read as texts, so that one bad line leaves the others as they are.
-/

namespace WidthCheck.Text

/-- The UTF-8 form of a text. -/
def utf8 (cs : List Char) : List UInt8 := cs.flatMap String.utf8EncodeChar

/-- The text with this UTF-8 form, if there is one. -/
def decode? (bytes : List UInt8) : Option (List Char) :=
  (String.fromUTF8? ⟨bytes.toArray⟩).map String.toList

/-- The byte of a line feed. -/
def lineFeed : UInt8 := 10

/-- The byte of a carriage return. -/
def carriageReturn : UInt8 := 13

/-- The lines of bytes, without their line ends; as the lines of a text. -/
def byteLines (bytes : List UInt8) : List (List UInt8) :=
  let pieces := splitWhere (· == lineFeed) bytes
  let last := pieces.getLast?.getD []
  let closed := pieces.dropLast.map fun line =>
    if line.getLast? = some carriageReturn then line.dropLast else line
  closed ++ (if last = [] then [] else [last])

end WidthCheck.Text
