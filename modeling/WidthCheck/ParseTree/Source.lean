import WidthCheck.ParseTree.Node
import WidthCheck.Text.Utf8

/-!
# Source texts

The bytes of a source file, the text of a node in them, and lines and columns of positions.
-/

namespace WidthCheck

/-- A place in a source file. Lines and columns start at one; columns, offsets and lengths count
bytes. -/
structure Position where
  line : Nat
  column : Nat
  offset : Nat
  length : Nat
deriving DecidableEq, Repr, Inhabited

/-- The bytes of a source file. -/
structure Source where
  bytes : Array UInt8
deriving Inhabited

namespace Source

def ofString (text : String) : Source := ⟨text.toUTF8.data⟩

/-- The text of a range; empty if the range does not hold whole characters. -/
def slice (src : Source) (span : Span) : String :=
  (String.fromUTF8? ⟨src.bytes.extract span.start span.stop⟩).getD ""

/-- The text of a node. -/
def text (src : Source) (node : Node) : String := src.slice node.span

/-- The text of a node with its blanks collapsed. -/
def collapsed (src : Source) (node : Node) : String :=
  String.ofList (Text.collapse (src.text node).toList)

/-- The line of an offset: one more than the line feeds before it. -/
def lineAt (src : Source) (offset : Nat) : Nat :=
  (src.bytes.extract 0 offset).count Text.lineFeed + 1

/-- The column of an offset: one more than the bytes since the line feed before it. -/
def columnAt (src : Source) (offset : Nat) : Nat :=
  ((src.bytes.extract 0 offset).toList.reverse.takeWhile (· != Text.lineFeed)).length + 1

/-- Where a node stands. A node that error recovery inserted stands nowhere. -/
def location (src : Source) (node : Node) : Option Position :=
  if node.label.isMissing then none
  else some {
    line := src.lineAt node.span.start
    column := src.columnAt node.span.start
    offset := node.span.start
    length := node.span.stop - node.span.start }

end Source

end WidthCheck
