import WidthCheck.Text.Width
import WidthCheck.Violation

/-!
# Snippets

A finding is shown with the lines of its place, one line before them and one line after them. Under
a line with an end of the place stands where it is, in columns of the display.
-/

namespace WidthCheck

/-- A line of a snippet. -/
structure SnippetLine where
  number : Nat
  /-- The byte at which the line starts. -/
  offset : Nat
  text : List Char
  /-- Whether the snippet ends with the line break of this line. -/
  closes : Bool
deriving DecidableEq, Repr

/-- Where a place stands in a line: columns start at one. -/
inductive Marker where
  /-- It starts and ends there. -/
  | within (first last : Nat)
  | starts (column : Nat)
  | ends (column : Nat)
deriving DecidableEq, Repr

namespace Marker

/-- Where the marker is, in words. -/
def place (line : Nat) : Marker → String
  | within first last =>
      if first = last then "label at line " ++ toString line ++ ", column " ++ toString first
      else
        "label at line " ++ toString line ++ ", columns " ++ toString first ++ " to " ++
          toString last
  | starts column =>
      "label starting at line " ++ toString line ++ ", column " ++ toString column
  | ends column => "label ending at line " ++ toString line ++ ", column " ++ toString column

end Marker

/-- A part of a text, as whole lines. -/
structure Snippet where
  /-- The number of lines before it. -/
  skipped : Nat
  lines : List SnippetLine
deriving DecidableEq, Repr

namespace Snippet

/-- The first and the last byte of each line break: a line feed, a carriage return, or both. -/
def breaksFrom : Nat → List Char → List (Nat × Nat)
  | _, [] => []
  | offset, '\r' :: '\n' :: cs => (offset, offset + 1) :: breaksFrom (offset + 2) cs
  | offset, c :: cs =>
      if c = '\r' ∨ c = '\n' then (offset, offset) :: breaksFrom (offset + 1) cs
      else breaksFrom (offset + c.utf8Size) cs

/-- The lines of a snippet. They end in line feeds, with or without a carriage return; a carriage
return alone stays in its line. `skipped` is the number of lines before, `start` the byte where the
line starts, `offset` that of the next character, and `read` the line so far, backwards. -/
def linesFrom (skipped start offset : Nat) (read : List Char) : List Char → List SnippetLine
  | [] => []
  | '\r' :: '\n' :: cs =>
      ⟨skipped + 1, start, read.reverse, cs.isEmpty⟩ ::
        linesFrom (skipped + 1) (offset + 2) (offset + 2) [] cs
  | '\n' :: cs =>
      ⟨skipped + 1, start, read.reverse, cs.isEmpty⟩ ::
        linesFrom (skipped + 1) (offset + 1) (offset + 1) [] cs
  | ['\r'] => [⟨skipped, start, ('\r' :: read).reverse, true⟩]
  | [c] => [⟨skipped + 1, start, (c :: read).reverse, false⟩]
  | c :: cs => linesFrom skipped start (offset + c.utf8Size) (c :: read) cs

/-- The snippet around the bytes from `offset` on. -/
def around (text : List Char) (offset length : Nat) : Snippet :=
  let breaks := breaksFrom 0 text
  let before := breaks.filter (·.2 < offset)
  let after := breaks.filter (offset + length ≤ ·.1)
  let start := match before.reverse with
    | _ :: previous :: _ => previous.2 + 1
    | _ => 0
  let fromStart := Text.dropBytes start text
  let shown := match after with
    | _ :: next :: _ => Text.takeBytes (next.2 + 1 - start) fromStart
    | _ => fromStart
  { skipped := before.length - 1, lines := linesFrom (before.length - 1) start start [] shown }

/-- The number of columns of a line before this byte of the text. -/
def columnsBefore (line : SnippetLine) (byte : Nat) : Nat :=
  Text.columns (Text.takeBytes (byte - line.offset) line.text)

/-- The marker in a line for the bytes from `offset` on. -/
def marker? (line : SnippetLine) (offset length : Nat) : Option Marker :=
  let stop := offset + length
  let lineStop := line.offset + (String.ofList line.text).utf8ByteSize
  let startsHere := decide (line.offset ≤ offset)
  let endsHere := line.closes || decide (stop ≤ lineStop)
  let first := columnsBefore line offset + 1
  if startsHere && endsHere then
    some (.within first (if length = 0 then first else columnsBefore line stop))
  else if startsHere && decide (offset ≤ lineStop) then some (.starts first)
  else if endsHere && decide (line.offset ≤ stop) then some (.ends (columnsBefore line stop))
  else none

/-- A line, and under it the marker of a place, labelled. -/
def renderLine (offset length : Nat) (label : String) (line : SnippetLine) : String :=
  "snippet line " ++ toString line.number ++ ": " ++ String.ofList line.text ++ "\n" ++
    (match marker? line offset length with
      | some marker => "    " ++ marker.place line.number ++ ": " ++ label ++ "\n"
      | none => "")

end Snippet

namespace Violation

/-- The snippet of a violation, from the text of its file. -/
def snippet (v : Violation) (text : String) : String :=
  let s := Snippet.around text.toList v.location.offset v.location.length
  "Begin snippet for " ++ v.location.file.text ++ " starting at line " ++
    toString (s.skipped + 1) ++ ", column 1\n\n" ++
    String.join (s.lines.map (Snippet.renderLine v.location.offset v.location.length v.rule))

/-- A violation with its snippet, if the text of its file is known. -/
def narrate (v : Violation) (text : Option String) : String :=
  v.heading ++ "\n    Diagnostic severity: error\n" ++ (text.elim "" v.snippet) ++
    (match v.suggestion with
      | some s => "diagnostic help: " ++ s ++ "\n"
      | none => "")

end Violation

end WidthCheck
