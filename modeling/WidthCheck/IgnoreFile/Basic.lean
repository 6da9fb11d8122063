import WidthCheck.FileTree
import WidthCheck.IgnoreFile.Pattern

/-!
# Ignore files

The lines of `.gitignore` and `.ignore` files. A line is a pattern for paths below the directory of
the file:

* `#` starts a comment, `!` takes back what earlier lines ignore, and a backslash in front of one of
  them makes it an ordinary character; blanks at the end do not count;
* a slash at the end asks for a directory;
* a pattern with no other slash matches at any depth, any other pattern from the directory down.

Of the lines that match a path the last one decides. Lines with malformed patterns do not count, and
a file ends before its first line that is not a text.
-/

namespace WidthCheck

/-- A line of an ignore file. -/
structure IgnoreRule where
  pattern : BytePattern
  /-- Whether the line takes back what earlier lines ignore. -/
  isException : Bool
  /-- Whether the line is about directories only. -/
  onlyDirectories : Bool
deriving DecidableEq, Repr

namespace IgnoreRule

/-- Whether a line is about a path, which is given by its bytes. -/
def covers (rule : IgnoreRule) (relative : List UInt8) (isDirectory : Bool) : Bool :=
  (isDirectory || !rule.onlyDirectories) && rule.pattern.accepts relative

/-- Drops the blanks at the end of a line, unless the last one is escaped. -/
def dropBlanks (line : List Char) : List Char :=
  if "\\ ".toList.isSuffixOf line then line else Text.trimRight line

/-- The pattern of a line as it is to be matched against whole paths. -/
def wholePattern (anchored : Bool) (pattern : List Char) : List Char :=
  let full :=
    if anchored || pattern.contains '/' || pattern == ['*', '*'] then pattern
    else '*' :: '*' :: '/' :: pattern
  if "/**".toList.isSuffixOf full then full ++ ['/', '*'] else full

/-- Takes the slash at the end of a pattern, and a backslash before it. -/
def dropSlash (pattern : List Char) : List Char × Bool :=
  if pattern.getLast? = some '/' then
    let shorter := pattern.dropLast
    (if shorter.getLast? = some '\\' then shorter.dropLast else shorter, true)
  else (pattern, false)

/-- Reads what follows the marks at the start of a line. -/
def parsePattern (isException anchored : Bool) (pattern : List Char) :
    Except IgnorePatternProblem IgnoreRule :=
  let (body, onlyDirectories) := dropSlash pattern
  (IgnorePattern.parse (wholePattern anchored body)).map fun pattern =>
    { pattern, isException, onlyDirectories }

/-- Takes the slash that ties a pattern to the directory of the file. -/
def parseAnchor (isException : Bool) : List Char → Except IgnorePatternProblem IgnoreRule
  | '/' :: rest => parsePattern isException true rest
  | rest => parsePattern isException false rest

/-- Reads a line without the blanks at its end. -/
def parse (line : List Char) : Except IgnorePatternProblem IgnoreRule :=
  match line with
  | '\\' :: '!' :: rest => parsePattern false false ('!' :: rest)
  | '\\' :: '#' :: rest => parsePattern false false ('#' :: rest)
  | '!' :: rest => parseAnchor true rest
  | rest => parseAnchor false rest

end IgnoreRule

/-- What is wrong with a line of an ignore file. -/
inductive IgnoreLineProblem where
  /-- The line is not a text. -/
  | notText
  /-- The pattern is malformed. -/
  | pattern (line : List Char) (problem : IgnorePatternProblem)
deriving DecidableEq, Repr

/-- How the operating system words that bytes are no text. -/
def notTextMessage : String := "stream did not contain valid UTF-8"

def IgnoreLineProblem.message : IgnoreLineProblem → String
  | notText => notTextMessage
  | pattern line problem =>
      "error parsing glob '" ++ String.ofList line ++ "': " ++ problem.message

/-- The lines of an ignore file. -/
structure IgnoreFile where
  rules : List IgnoreRule := []
  /-- What is wrong, by the number of the line. -/
  problems : List (Nat × IgnoreLineProblem) := []
deriving DecidableEq, Repr

namespace IgnoreFile

/-- Puts a line in front of the lines that follow it. Comments and empty lines are left out. -/
def addLine (number : Nat) (line : List Char) (after : IgnoreFile) : IgnoreFile :=
  let body := IgnoreRule.dropBlanks line
  if line.head? = some '#' ∨ body = [] then after
  else
    match IgnoreRule.parse body with
    | .ok rule => { after with rules := rule :: after.rules }
    | .error problem => { after with problems := (number, .pattern body problem) :: after.problems }

/-- Reads lines; `number` is that of the first. -/
def ofLines (number : Nat) : List (Option (List Char)) → IgnoreFile
  | [] => {}
  | none :: _ => { problems := [(number, .notText)] }
  | some line :: rest => addLine number line (ofLines (number + 1) rest)

/-- Drops byte order marks in front of the first line. -/
def dropMarks : List (Option (List Char)) → List (Option (List Char))
  | some line :: rest => some (line.dropWhile (· = '\ufeff')) :: rest
  | lines => lines

/-- Reads a file. -/
def ofContent (content : FileContent) : IgnoreFile := ofLines 1 (dropMarks content.lines)

/-- Reads a file if there is one. -/
def ofContent? (content : Option FileContent) : IgnoreFile := content.elim {} ofContent

/-- Whether the file ignores a path, or takes back that it is ignored, or says nothing of it. -/
def ignores? (file : IgnoreFile) (relative : List UInt8) (isDirectory : Bool) : Option Bool :=
  (file.rules.reverse.find? (·.covers relative isDirectory)).map (!·.isException)

/-- What is worth reporting of what is wrong: nothing if that is only a line that is no text. -/
def faults (file : IgnoreFile) : List (Nat × IgnoreLineProblem) :=
  match file.problems with
  | [(_, .notText)] => []
  | problems => problems

end IgnoreFile

end WidthCheck
