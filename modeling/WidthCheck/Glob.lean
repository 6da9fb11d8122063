/-!
# Glob patterns

Patterns for paths. `?` is any character and `*` any text; both also stand for slashes. `**` stands
for any number of whole components and must be a component itself. `[abc]` and `[a-z]` are one
character of a set, `[!abc]` one character outside it; a `]` right at the start of a set belongs to
it. A pattern has to match the whole path.
-/

namespace WidthCheck

/-- A part of a glob pattern. -/
inductive GlobToken where
  | char (c : Char)
  /-- Any character. -/
  | one
  /-- A character in one of the ranges. -/
  | within (ranges : List (Char × Char))
  /-- A character outside all ranges. -/
  | except (ranges : List (Char × Char))
  /-- Any text. -/
  | sequence
  /-- Any number of components. -/
  | components
deriving DecidableEq, Repr

/-- A pattern for paths. -/
structure Glob where
  tokens : List GlobToken
deriving DecidableEq, Repr

namespace Glob

/-! ## Matching -/

/-- Whether a character lies in one of the ranges. -/
def inRanges (ranges : List (Char × Char)) (c : Char) : Bool :=
  ranges.any fun r => r.1 ≤ c ∧ c ≤ r.2

/-- A text and all that is left of it when characters are taken from its front. -/
def suffixes : List Char → List (List Char)
  | [] => [[]]
  | c :: cs => (c :: cs) :: suffixes cs

/-- What follows each slash of a text, and the empty end of the text. -/
def afterSlashes : List Char → List (List Char)
  | [] => [[]]
  | c :: cs => if c = '/' then cs :: afterSlashes cs else afterSlashes cs

/-- Whether a token for one character accepts this one. -/
def acceptsChar (token : GlobToken) (c : Char) : Bool :=
  match token with
  | .char d => d == c
  | .one => true
  | .within ranges => inRanges ranges c
  | .except ranges => !inRanges ranges c
  | .sequence | .components => false

/-- Whether tokens match a whole text that starts a component. -/
def tokensAccept : List GlobToken → List Char → Bool
  | [], cs => cs.isEmpty
  | .sequence :: rest, cs => (suffixes cs).any (tokensAccept rest)
  | .components :: rest, cs => (cs :: afterSlashes cs).any (tokensAccept rest)
  | token :: rest, c :: cs => acceptsChar token c && tokensAccept rest cs
  | _ :: _, [] => false

/-! ### All suffixes at once

A row says for each suffix of a text, the longest first, whether tokens match it. The row of tokens
comes from that of the tokens after the first, so that no suffix is matched twice against the same
tokens.
-/

/-- The row of any text, given the row of what follows it. -/
def sequenceRow : List Bool → List Bool
  | [] => []
  | here :: after =>
      let later := sequenceRow after
      (here || later.headD false) :: later

/-- Whether what follows a slash of the text, or its empty end, is in a row. -/
def afterSlashRow : List Char → List Bool → List Bool
  | c :: cs, _ :: after =>
      let later := afterSlashRow cs after
      ((c == '/' && after.headD false) || later.headD false) :: later
  | _, row => row

/-- The row of one character, given the row of what follows it. -/
def charRow (token : GlobToken) : List Char → List Bool → List Bool
  | c :: cs, _ :: after => (acceptsChar token c && after.headD false) :: charRow token cs after
  | _, _ => [false]

/-- The row of a token, given the row of what follows it. -/
def tokenRow (token : GlobToken) (cs : List Char) (after : List Bool) : List Bool :=
  match token with
  | .sequence => sequenceRow after
  | .components => List.zipWith (· || ·) after (afterSlashRow cs after)
  | _ => charRow token cs after

/-- The row of tokens. -/
def tokensRow (cs : List Char) : List GlobToken → List Bool
  | [] => (suffixes cs).map List.isEmpty
  | token :: rest => tokenRow token cs (tokensRow cs rest)

/-- Whether a pattern matches a text. -/
def accepts (g : Glob) (text : String) : Bool := (tokensRow text.toList g.tokens).headD false

theorem headD_map_suffixes (f : List Char → Bool) (cs : List Char) :
    ((suffixes cs).map f).headD false = f cs := by
  cases cs <;> rfl

theorem sequenceRow_map (f : List Char → Bool) (cs : List Char) :
    sequenceRow ((suffixes cs).map f) = (suffixes cs).map fun s => (suffixes s).any f := by
  induction cs with
  | nil => simp [suffixes, sequenceRow]
  | cons c cs ih =>
    simp only [suffixes, List.map_cons, sequenceRow, ih, List.any_cons]
    rw [headD_map_suffixes]

theorem afterSlashRow_map (f : List Char → Bool) (cs : List Char) :
    afterSlashRow cs ((suffixes cs).map f) = (suffixes cs).map fun s => (afterSlashes s).any f := by
  induction cs with
  | nil => simp [suffixes, afterSlashes, afterSlashRow]
  | cons c cs ih =>
    simp only [suffixes, List.map_cons, afterSlashRow, ih, headD_map_suffixes, afterSlashes]
    by_cases h : c = '/' <;> simp [h]

theorem charRow_map (token : GlobToken) (f : List Char → Bool) (cs : List Char) :
    charRow token cs ((suffixes cs).map f) =
      (suffixes cs).map fun
        | [] => false
        | c :: s => acceptsChar token c && f s := by
  induction cs with
  | nil => rfl
  | cons c cs ih => simp only [suffixes, List.map_cons, charRow, ih, headD_map_suffixes]

/-- A row holds the answers for all suffixes. -/
theorem tokensRow_eq (cs : List Char) (tokens : List GlobToken) :
    tokensRow cs tokens = (suffixes cs).map (tokensAccept tokens) := by
  induction tokens with
  | nil => exact List.map_congr_left fun s _ => by simp [tokensAccept]
  | cons token rest ih =>
    have byChar : charRow token cs (tokensRow cs rest) =
        (suffixes cs).map fun
          | [] => false
          | c :: s => acceptsChar token c && tokensAccept rest s := by
      rw [ih, charRow_map]
    cases token with
    | sequence => simp only [tokensRow, tokenRow, ih, sequenceRow_map, tokensAccept]
    | components =>
      simp only [tokensRow, tokenRow, ih, afterSlashRow_map, List.zipWith_map, List.zipWith_self]
      exact List.map_congr_left fun s _ => by simp [tokensAccept]
    | _ =>
      refine byChar.trans (List.map_congr_left fun s _ => ?_)
      cases s <;> simp [tokensAccept]

/-- A pattern matches a text when its tokens match it. -/
theorem accepts_eq (g : Glob) (text : String) :
    g.accepts text = tokensAccept g.tokens text.toList := by
  rw [accepts, tokensRow_eq, headD_map_suffixes]

/-! ## Reading -/

/-- What is wrong with a pattern. -/
inductive Problem where
  /-- There are more than two stars in a row. -/
  | tooManyStars
  /-- Two stars are not a component of their own. -/
  | notAComponent
  /-- A set is empty or not closed. -/
  | badSet
deriving DecidableEq, Repr

/-- A problem and the number of characters before it. -/
structure Error where
  position : Nat
  problem : Problem
deriving DecidableEq, Repr

def Problem.message : Problem → String
  | tooManyStars => "wildcards are either regular `*` or recursive `**`"
  | notAComponent => "recursive wildcards must form a single path component"
  | badSet => "invalid range pattern"

def Error.message (e : Error) : String :=
  "Pattern syntax error near position " ++ toString e.position ++ ": " ++ e.problem.message

/-- The ranges of a set: single characters, and pairs with a dash between them. -/
def readRanges : List Char → List (Char × Char)
  | low :: '-' :: high :: rest => (low, high) :: readRanges rest
  | c :: rest => (c, c) :: readRanges rest
  | [] => []

/-- Reads the members of a set, up to the bracket that closes it. There is at least one. The result
is the members and the number of characters read, with the bracket. -/
def readMembers : List Char → Option (List Char × Nat)
  | [] => none
  | first :: rest =>
      let more := rest.takeWhile (· ≠ ']')
      if more.length < rest.length then some (first :: more, more.length + 2) else none

/-- Reads a set after its opening bracket; also gives the number of characters read. -/
def readSet : List Char → Option (GlobToken × Nat)
  | '!' :: rest =>
      (readMembers rest).map fun (members, count) => (.except (readRanges members), count + 1)
  | rest => (readMembers rest).map fun (members, count) => (.within (readRanges members), count)

/-- Reads stars after the first one; `before` is what stands in front of them, backwards. -/
def readStars (before rest : List Char) : Except Error (GlobToken × Nat) :=
  match rest with
  | '*' :: '*' :: _ => .error ⟨before.length + 2, .tooManyStars⟩
  | '*' :: after =>
      if before.head?.all (· == '/') then
        match after with
        | [] => .ok (.components, 1)
        | '/' :: _ => .ok (.components, 2)
        | _ :: _ => .error ⟨before.length + 2, .notAComponent⟩
      else .error ⟨before.length - 1, .notAComponent⟩
  | _ => .ok (.sequence, 0)

/-- Reads the token that starts with `c`; also gives the number of characters read after `c`.
`before` is what stands in front of it, backwards. -/
def readToken (before : List Char) (c : Char) (rest : List Char) : Except Error (GlobToken × Nat) :=
  if c = '?' then .ok (.one, 0)
  else if c = '*' then readStars before rest
  else if c = '[' then
    match readSet rest with
    | some found => .ok found
    | none => .error ⟨before.length, .badSet⟩
  else .ok (.char c, 0)

/-- Reads the tokens of a pattern; `before` is what has been read, backwards. -/
def readTokens (before : List Char) : List Char → Except Error (List GlobToken)
  | [] => .ok []
  | c :: rest =>
      match readToken before c rest with
      | .error e => .error e
      | .ok (token, count) =>
          (readTokens ((rest.take count).reverse ++ c :: before) (rest.drop count)).map (token :: ·)
termination_by cs => cs.length
decreasing_by
  simp only [List.length_drop, List.length_cons]
  omega

/-- Reads a pattern. -/
def parse (pattern : String) : Except Error Glob := (readTokens [] pattern.toList).map Glob.mk

end Glob

end WidthCheck
