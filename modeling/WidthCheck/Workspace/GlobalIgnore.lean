import WidthCheck.IgnoreFile.Basic
import WidthCheck.Workspace

/-!
# The ignore file of the user

An ignore file that counts in every repository. The first line `excludesfile = PATH` in the settings
of the user names it, whatever section it is in; without such a line it is `git/ignore` in the
directory for settings. The path may stand in quotes, and every `~` stands for the home directory.
-/

namespace WidthCheck

namespace UserSettings

/-- Whether a byte is a blank in settings. -/
def isSpace (b : UInt8) : Bool := b == 32 || (9 ≤ b && b ≤ 13)

/-- The byte of a quotation mark. -/
def quote : UInt8 := 34

/-- The byte of an equals sign. -/
def equals : UInt8 := 61

/-- A byte, with capital letters made small. -/
def toLower (b : UInt8) : UInt8 := if 65 ≤ b && b ≤ 90 then b + 32 else b

/-- Bytes and what follows each line feed in them. -/
def lineStarts (bytes : List UInt8) : List (List UInt8) := bytes :: afterFeeds bytes
where
  /-- What follows each line feed. -/
  afterFeeds : List UInt8 → List (List UInt8)
    | [] => []
    | b :: rest => if b = Text.lineFeed then rest :: afterFeeds rest else afterFeeds rest

/-- Whether only blanks are left of a line. -/
def atLineEnd (bytes : List UInt8) : Bool :=
  match bytes.dropWhile (fun b => isSpace b && b != Text.lineFeed) with
  | [] => true
  | b :: _ => b == Text.lineFeed

/-- Whether a value can end here: only blanks are left of the line, or blanks, a quotation mark and
then blanks. -/
def endsValue (bytes : List UInt8) : Bool :=
  atLineEnd bytes ||
    match bytes.dropWhile isSpace with
    | b :: rest => b == quote && atLineEnd rest
    | [] => false

/-- The shortest bytes without blanks, at least one, after which a value can end. -/
def shortestValue? : List UInt8 → Option (List UInt8)
  | [] => none
  | b :: rest =>
      if isSpace b then none
      else if endsValue rest then some [b]
      else (shortestValue? rest).map (b :: ·)

/-- Reads the value after an equals sign; a quotation mark in front of it is left out if there is
a value after it. -/
def value? (bytes : List UInt8) : Option (List UInt8) :=
  match bytes.dropWhile isSpace with
  | [] => none
  | b :: rest =>
      if b = quote then
        (shortestValue? (rest.dropWhile isSpace)).or (shortestValue? (b :: rest))
      else shortestValue? (b :: rest)

/-- The name that the path is given under, in small letters. -/
def excludesKey : List UInt8 := Text.utf8 "excludesfile".toList

/-- Reads the path at the start of a line. -/
def excludesAt? (line : List UInt8) : Option (List UInt8) :=
  let start := line.dropWhile isSpace
  if (start.take excludesKey.length).map toLower = excludesKey then
    match (start.drop excludesKey.length).dropWhile isSpace with
    | b :: rest => if b = equals then value? rest else none
    | [] => none
  else none

/-- The path that settings name. -/
def excludesFile? (bytes : List UInt8) : Option (List Char) :=
  ((lineStarts bytes).findSome? excludesAt?).bind Text.decode?

/-- Puts the home directory in for every `~`. -/
def expandHome (home : Option Path) (path : List Char) : Path :=
  match home with
  | none => ⟨String.ofList path⟩
  | some home =>
      ⟨String.ofList (path.flatMap fun c => if c = '~' then home.text.toList else [c])⟩

end UserSettings

namespace Workspace

/-- The files with settings of the user, in the order in which they count. -/
def settingsFiles (w : Workspace) : List Path :=
  (w.home.map (·.join ⟨".gitconfig"⟩)).toList ++
    (w.settingsDirectory?.map (·.join ⟨"git/config"⟩)).toList

/-- The path of the ignore file of the user. -/
def globalIgnorePath? (w : Workspace) : Option Path :=
  ((w.settingsFiles.filterMap w.fileAt?).findSome? fun content =>
      (UserSettings.excludesFile? content.bytes).map (UserSettings.expandHome w.home)).or
    (w.settingsDirectory?.map (·.join ⟨"git/ignore"⟩))

/-- The ignore file of the user; empty if there is none. -/
def globalIgnore (w : Workspace) : IgnoreFile :=
  .ofContent? (w.globalIgnorePath?.bind w.fileAt?)

end Workspace

end WidthCheck
