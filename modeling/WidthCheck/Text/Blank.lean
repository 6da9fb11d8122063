/-!
# Blank characters, trimming, words and lines

Texts are handled as lists of characters. A character is blank when it has the Unicode property
`White_Space`; trimming and splitting into words go by that property, splitting into lines by the
line feed alone.
-/

namespace WidthCheck.Text

/-- The characters with the property `White_Space`. -/
def blanks : List Char :=
  ['\t', '\n', '\x0b', '\x0c', '\r', ' ', '\u0085', '\u00a0', '\u1680', '\u2000', '\u2001',
    '\u2002', '\u2003', '\u2004', '\u2005', '\u2006', '\u2007', '\u2008', '\u2009', '\u200a',
    '\u2028', '\u2029', '\u202f', '\u205f', '\u3000']

def isBlank (c : Char) : Bool := blanks.contains c

/-- Drops the blanks in front. -/
def trimLeft (cs : List Char) : List Char := cs.dropWhile isBlank

/-- Drops the blanks at the end. -/
def trimRight (cs : List Char) : List Char := (cs.reverse.dropWhile isBlank).reverse

/-- Drops the blanks at both ends. -/
def trim (cs : List Char) : List Char := trimRight (trimLeft cs)

/-- Cuts a list, such as a text, at every item that satisfies `p`. The pieces, one more than there
are cuts, do not contain the items cut at. -/
def splitWhere {α : Type} (p : α → Bool) (cs : List α) : List (List α) :=
  cs.foldr
    (fun c pieces =>
      if p c then [] :: pieces
      else match pieces with
        | piece :: rest => (c :: piece) :: rest
        | [] => [[c]])
    [[]]

@[simp] theorem splitWhere_nil {α : Type} (p : α → Bool) : splitWhere p [] = [[]] := rfl

theorem splitWhere_cons_of_true {α : Type} {p : α → Bool} {c : α} (h : p c = true) (cs : List α) :
    splitWhere p (c :: cs) = [] :: splitWhere p cs := by
  simp [splitWhere, h]

theorem splitWhere_ne_nil {α : Type} (p : α → Bool) (cs : List α) : splitWhere p cs ≠ [] := by
  induction cs with
  | nil => simp
  | cons c cs ih =>
    simp only [splitWhere, List.foldr_cons]
    split
    · simp
    · split <;> simp

/-- The maximal runs of characters that are not blank. -/
def words (cs : List Char) : List (List Char) := (splitWhere isBlank cs).filter (· ≠ [])

/-- The words of a text with one space between them. -/
def collapse (cs : List Char) : List Char := [' '].intercalate (words cs)

/-- Drops one carriage return at the end. -/
def dropReturn (cs : List Char) : List Char :=
  if cs.getLast? = some '\r' then cs.dropLast else cs

/-- The physical lines of a text, without their line ends. A line ends in a line feed, which may
have a carriage return before it; what follows the last line feed is a line unless it is empty. -/
def lines (cs : List Char) : List (List Char) :=
  let pieces := splitWhere (· == '\n') cs
  let last := pieces.getLast?.getD []
  pieces.dropLast.map dropReturn ++ (if last = [] then [] else [last])

end WidthCheck.Text
