import WidthCheck.BytePattern
import WidthCheck.Text.Utf8

/-!
# Patterns of ignore files

How a pattern of an ignore file is written:

* `?` is a byte and `*` any bytes, but neither stands for a slash;
* `**` as a whole component stands for any number of components;
* `[abc]` and `[a-z]` are one byte of a set, `[!abc]` and `[^abc]` one byte outside it; a set can
  stand for a slash, and a bracket that is never closed is an ordinary character;
* of patterns in braces, with commas between them, any one; empty ones do not count;
* a backslash makes the next character an ordinary one.

Patterns are for the bytes of a path, so a character that is not ASCII has several of them.
-/

namespace WidthCheck

/-- What is wrong with a pattern of an ignore file. -/
inductive IgnorePatternProblem where
  /-- The ends of a range are the wrong way round. -/
  | reversedRange (low high : Char)
  /-- A brace closes nothing. -/
  | unopenedGroup
  /-- A brace is not closed. -/
  | unclosedGroup
  /-- There is nothing after a backslash. -/
  | danglingEscape
deriving DecidableEq, Repr

def IgnorePatternProblem.message : IgnorePatternProblem → String
  | reversedRange low high =>
      "invalid range; '" ++ low.toString ++ "' > '" ++ high.toString ++ "'"
  | unopenedGroup =>
      "unopened alternate group; missing '\x7b' (maybe escape '\x7d' with '[\x7d]'?)"
  | unclosedGroup =>
      "unclosed alternate group; missing '\x7d' (maybe escape '\x7b' with '[\x7b]'?)"
  | danglingEscape => "dangling '\\'"

namespace IgnorePattern

/-! ## Parts -/

/-- The byte of a slash. -/
def slashByte : UInt8 := 47

def slash : BytePattern := .one (.single slashByte)

/-- A byte other than a slash. -/
def anyByte : BytePattern := .one (.allBut slashByte)

/-- Bytes other than slashes. -/
def anyName : BytePattern := .many (.allBut slashByte)

def anything : BytePattern := .many .all

/-- Any number of components, each with the slash after it. -/
def leading : BytePattern := .either .empty (.seq anything slash)

/-- A slash, and any number of components, each with the slash after it. -/
def inner : BytePattern := .seq slash leading

/-- A slash and all that follows it. -/
def trailing : BytePattern := .seq slash anything

/-- The bytes of a character. -/
def character (c : Char) : BytePattern :=
  .sequence ((Text.utf8 [c]).map fun b => .one (.single b))

/-- The bytes of a range of characters: those from the last byte of the lower end to the first byte
of the upper end, and the other bytes of both ends. -/
def byteRanges (low high : Char) : List (UInt8 × UInt8) :=
  let alone := List.map fun b => (b, b)
  match (Text.utf8 [low]).reverse, Text.utf8 [high] with
  | last :: before, first :: after =>
      if low = high then alone (first :: after)
      else alone before.reverse ++ (last, first) :: alone after
  | _, _ => []

/-! ## Sets -/

/-- What is read of a set: its ranges, and the number of characters with the closing bracket. -/
structure SetMembers where
  ranges : List (Char × Char)
  count : Nat

/-- Reads the members of a set up to the closing bracket; nothing if there is none. A dash between
two characters makes a range, which must not be reversed; at either end it is an ordinary character.
`ranges` are those that have been read, backwards; `inRange` says that a dash has been read after
them. -/
def readMembers (ranges : List (Char × Char)) (inRange : Bool) (count : Nat) :
    List Char → Except IgnorePatternProblem (Option SetMembers)
  | [] => .ok none
  | c :: rest =>
      match ranges, inRange with
      | [], _ => readMembers [(c, c)] false (count + 1) rest
      | (low, high) :: others, inRange =>
          if c = ']' then
            let all := if inRange then ('-', '-') :: ranges else ranges
            .ok (some ⟨all.reverse, count + 1⟩)
          else if inRange then
            if c < low then .error (.reversedRange low c)
            else readMembers ((low, c) :: others) false (count + 1) rest
          else if c = '-' then readMembers ((low, high) :: others) true (count + 1) rest
          else readMembers ((c, c) :: (low, high) :: others) false (count + 1) rest

/-- A set that has been read, as a pattern. -/
def setPattern (negated : Bool) (members : SetMembers) : BytePattern :=
  .one ⟨members.ranges.flatMap fun (low, high) => byteRanges low high, negated⟩

/-- Reads a set after its opening bracket; also gives the number of characters read. Nothing if the
set is not closed. -/
def readSet (rest : List Char) : Except IgnorePatternProblem (Option (BytePattern × Nat)) :=
  match rest with
  | c :: after =>
      if c = '!' ∨ c = '^' then do
        return (← readMembers [] false 1 after).map fun members =>
          (setPattern true members, members.count)
      else do
        return (← readMembers [] false 0 (c :: after)).map fun members =>
          (setPattern false members, members.count)
  | [] => .ok none

/-! ## Reading -/

/-- A group of patterns in braces that is not closed yet. All lists are backwards. -/
structure OpenGroup where
  /-- What stands in front of the group. -/
  before : List BytePattern
  /-- The patterns of the group that are complete. -/
  done : List (List BytePattern) := []

/-- What has been read of a pattern. -/
structure Progress where
  /-- The parts of the innermost open group's last pattern, or of the pattern itself, backwards. -/
  parts : List BytePattern := []
  /-- The open groups, the innermost first. -/
  groups : List OpenGroup := []
  /-- The character just read. -/
  last : Option Char := none
  /-- Whether a bracket has been found that is never closed. -/
  unclosedSet : Bool := false

namespace Progress

/-- Adds a part that ends with the character `last`. -/
def add (p : Progress) (part : BytePattern) (last : Char) : Progress :=
  { p with parts := part :: p.parts, last := some last }

/-- Whether a component starts here: after a slash, or, in a group, after a brace or a comma. -/
def startsComponent (p : Progress) : Bool :=
  p.last == some '/' ||
    (!p.groups.isEmpty && (p.last == some ',' || p.last == some '\x7b'))

/-- Whether a pattern ends before this text. -/
def endsBefore (p : Progress) : List Char → Bool
  | [] => true
  | c :: _ => !p.groups.isEmpty && (c == ',' || c == '\x7d')

/-- Two stars that are no component of their own. -/
def addPlainStars (p : Progress) : Progress :=
  { p with parts := anyName :: anyName :: p.parts, last := some '*' }

/-- Adds two stars at the start of a pattern; also gives the number of characters read after
them. -/
def addFirstStars (p : Progress) : List Char → Progress × Nat
  | [] => (p.add leading '*', 0)
  | '/' :: _ => (p.add leading '/', 1)
  | _ :: _ => (p.addPlainStars, 0)

/-- Puts components in the place of the last part, which is a slash or has one at its end. -/
def widen (p : Progress) (part : BytePattern) (last : Char) : Progress :=
  match p.parts with
  | [] => p
  | old :: parts =>
      { p with parts := (if old = leading then leading else part) :: parts, last := some last }

/-- Adds two stars; also gives the number of characters read after them. -/
def addStars (p : Progress) (after : List Char) : Progress × Nat :=
  if p.parts.isEmpty then p.addFirstStars after
  else if !p.startsComponent then (p.addPlainStars, 0)
  else if p.endsBefore after then (p.widen trailing '*', 0)
  else if after.head? = some '/' then (p.widen inner '/', 1)
  else (p.addPlainStars, 0)

/-- Opens a group. -/
def openGroup (p : Progress) : Progress :=
  { p with parts := [], groups := { before := p.parts } :: p.groups, last := some '\x7b' }

/-- The patterns of a group as one; those without parts, or with empty parts only, do not count. -/
def groupPattern (patterns : List (List BytePattern)) : BytePattern :=
  .alternatives ((patterns.filter (·.any (· ≠ .empty))).map fun parts => .sequence parts.reverse)

/-- Closes the innermost group. -/
def closeGroup (p : Progress) : Except IgnorePatternProblem Progress :=
  match p.groups with
  | [] => .error .unopenedGroup
  | group :: groups =>
      .ok { p with
        parts := groupPattern (p.parts :: group.done).reverse :: group.before, groups
        last := some '\x7d' }

/-- Goes on to the next pattern of the innermost group; outside groups a comma is a character. -/
def addComma (p : Progress) : Progress :=
  match p.groups with
  | [] => p.add (character ',') ','
  | group :: groups =>
      { p with
        parts := [], groups := { group with done := p.parts :: group.done } :: groups
        last := some ',' }

/-- Reads a part that starts with `c`; also gives the number of characters read after `c`. -/
def readPart (p : Progress) (c : Char) (rest : List Char) :
    Except IgnorePatternProblem (Progress × Nat) := do
  if c = '?' then return (p.add anyByte c, 0)
  else if c = '*' then
    match rest with
    | '*' :: after =>
        let (next, count) := p.addStars after
        return (next, count + 1)
    | _ => return (p.add anyName c, 0)
  else if c = '[' ∧ !p.unclosedSet then
    match ← readSet rest with
    | some (set, count) => return (p.add set ']', count)
    | none => return ({ p.add (character c) c with unclosedSet := true }, 0)
  else if c = '\x7b' then return (p.openGroup, 0)
  else if c = '\x7d' then return (← p.closeGroup, 0)
  else if c = ',' then return (p.addComma, 0)
  else if c = '\\' then
    match rest with
    | [] => throw .danglingEscape
    | d :: _ => return (p.add (character d) d, 1)
  else return (p.add (character c) c, 0)

/-- Reads the rest of a pattern; gives its parts. -/
def readAll (p : Progress) : List Char → Except IgnorePatternProblem (List BytePattern)
  | [] => if p.groups.isEmpty then .ok p.parts.reverse else .error .unclosedGroup
  | c :: rest =>
      match p.readPart c rest with
      | .error problem => .error problem
      | .ok (next, count) => readAll next (rest.drop count)
termination_by cs => cs.length
decreasing_by
  simp only [List.length_drop, List.length_cons]
  omega

end Progress

/-- Reads a pattern. Two stars alone stand for anything. -/
def parse (pattern : List Char) : Except IgnorePatternProblem BytePattern :=
  (Progress.readAll {} pattern).map fun parts =>
    if parts = [leading] then anything else .sequence parts

end IgnorePattern

end WidthCheck
