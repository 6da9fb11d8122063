import WidthCheck.Glob
import WidthCheck.Path
import WidthCheck.Text.Find

/-!
# Exclusions

Patterns of files that are left out of the analysis. Besides its meaning as a glob pattern, a
pattern excludes every path that contains it as a text, its double stars taken out: `**/build/**`
excludes what has `/build/` in it.
-/

namespace WidthCheck

/-- A pattern of files to leave out. -/
structure Exclusion where
  /-- The pattern as written. -/
  pattern : String
  glob : Glob
deriving DecidableEq, Repr

namespace Exclusion

/-- The patterns that hold if none are given. -/
def defaults : List String := ["**/build/**", "**/third_party/**"]

def parse (pattern : String) : Except Glob.Error Exclusion :=
  (Glob.parse pattern).map fun glob => { pattern, glob }

/-- What a pattern looks for as a text. -/
def needle (e : Exclusion) : List Char := Text.erasePairs '*' '*' e.pattern.toList

/-- Whether a text is more than one byte long. -/
def isLong (text : List Char) : Bool := 1 < (String.ofList text).utf8ByteSize

/-- Whether a path, relative to the directory of the analysis, is left out. -/
def excludes (e : Exclusion) (relative : Path) : Bool :=
  e.glob.accepts relative.text ||
    (isLong e.needle && Text.contains e.needle ('/' :: relative.text.toList))

/-- Reads patterns; without any, the default ones hold. -/
def parseAll (patterns : List String) : Except Glob.Error (List Exclusion) :=
  (if patterns = [] then defaults else patterns).mapM parse

end Exclusion

end WidthCheck
