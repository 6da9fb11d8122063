/-!
# Patterns for bytes

Patterns are made of sets of bytes, put after one another or beside one another.

Matching works on rows. A row belongs to some bytes and says something of each of their ends: of all
the bytes, of all but the first, and so on down to the empty end. From the row of what follows it, a
part of a pattern makes the row of what starts with it. A pattern is gone through once, from its
last part to its first, so the work grows with the length of the pattern times that of the bytes.
Main statement: `accepts_eq`, rows give the same answer as trying all ways to match.
-/

namespace WidthCheck

/-- A set of bytes: those in one of the ranges, or, if `negated`, those outside all of them. -/
structure ByteSet where
  ranges : List (UInt8 × UInt8)
  negated : Bool := false
deriving DecidableEq, Repr

namespace ByteSet

def contains (set : ByteSet) (b : UInt8) : Bool :=
  set.ranges.any (fun r => r.1 ≤ b && b ≤ r.2) != set.negated

/-- The set of one byte. -/
def single (b : UInt8) : ByteSet := ⟨[(b, b)], false⟩

/-- The set of all bytes. -/
def all : ByteSet := ⟨[], true⟩

/-- The set of all bytes but one. -/
def allBut (b : UInt8) : ByteSet := ⟨[(b, b)], true⟩

@[simp] theorem contains_all (b : UInt8) : all.contains b = true := rfl

end ByteSet

/-- A pattern for bytes. -/
inductive BytePattern where
  /-- No bytes. -/
  | empty
  /-- A byte of a set. -/
  | one (set : ByteSet)
  /-- Any number of bytes of a set. -/
  | many (set : ByteSet)
  /-- What one pattern matches and then what another one matches. -/
  | seq (first second : BytePattern)
  /-- What one of two patterns matches. -/
  | either (left right : BytePattern)
deriving DecidableEq, Repr

namespace BytePattern

/-! ## Meaning -/

/-- Whether bytes of a set can be taken from the front, any number of them, so that `rest` holds of
what is left. -/
def manyThen (set : ByteSet) (rest : List UInt8 → Bool) : List UInt8 → Bool
  | [] => rest []
  | b :: bytes => rest (b :: bytes) || (set.contains b && manyThen set rest bytes)

/-- Whether a pattern matches a start of the bytes so that `rest` holds of what is left. -/
def matchesThen : BytePattern → (List UInt8 → Bool) → List UInt8 → Bool
  | empty, rest, bytes => rest bytes
  | one _, _, [] => false
  | one set, rest, b :: bytes => set.contains b && rest bytes
  | many set, rest, bytes => manyThen set rest bytes
  | seq first second, rest, bytes => first.matchesThen (second.matchesThen rest) bytes
  | either left right, rest, bytes => left.matchesThen rest bytes || right.matchesThen rest bytes

/-! ## Rows -/

/-- Bytes and all that is left of them when bytes are taken from their front. -/
def ends : List UInt8 → List (List UInt8)
  | [] => [[]]
  | b :: bytes => (b :: bytes) :: ends bytes

/-- The row of a byte of a set, given the row of what follows it. -/
def oneRow (set : ByteSet) : List UInt8 → List Bool → List Bool
  | b :: bytes, _ :: after => (set.contains b && after.headD false) :: oneRow set bytes after
  | _, _ => [false]

/-- The row of any number of bytes of a set, given the row of what follows them. -/
def manyRow (set : ByteSet) : List UInt8 → List Bool → List Bool
  | b :: bytes, here :: after =>
      let later := manyRow set bytes after
      (here || (set.contains b && later.headD false)) :: later
  | _, after => after

/-- The row of a pattern, given the row of what follows it. -/
def row : BytePattern → List UInt8 → List Bool → List Bool
  | empty, _, after => after
  | one set, bytes, after => oneRow set bytes after
  | many set, bytes, after => manyRow set bytes after
  | seq first second, bytes, after => first.row bytes (second.row bytes after)
  | either left right, bytes, after =>
      List.zipWith (· || ·) (left.row bytes after) (right.row bytes after)

/-- Whether a pattern matches bytes as a whole. -/
def accepts (pattern : BytePattern) (bytes : List UInt8) : Bool :=
  (pattern.row bytes ((ends bytes).map List.isEmpty)).headD false

theorem headD_map_ends (f : List UInt8 → Bool) (bytes : List UInt8) :
    ((ends bytes).map f).headD false = f bytes := by
  cases bytes <;> rfl

theorem oneRow_map (set : ByteSet) (f : List UInt8 → Bool) (bytes : List UInt8) :
    oneRow set bytes ((ends bytes).map f) = (ends bytes).map ((one set).matchesThen f) := by
  induction bytes with
  | nil => rfl
  | cons b bytes ih => simp only [ends, List.map_cons, oneRow, ih, headD_map_ends, matchesThen]

theorem manyRow_map (set : ByteSet) (f : List UInt8 → Bool) (bytes : List UInt8) :
    manyRow set bytes ((ends bytes).map f) = (ends bytes).map (manyThen set f) := by
  induction bytes with
  | nil => rfl
  | cons b bytes ih => simp only [ends, List.map_cons, manyRow, ih, headD_map_ends, manyThen]

/-- A row holds the answers for all ends. -/
theorem row_map (pattern : BytePattern) (f : List UInt8 → Bool) (bytes : List UInt8) :
    pattern.row bytes ((ends bytes).map f) = (ends bytes).map (pattern.matchesThen f) := by
  induction pattern generalizing f with
  | empty => exact List.map_congr_left fun _ _ => by simp only [matchesThen]
  | one set => exact oneRow_map set f bytes
  | many set =>
    rw [row, manyRow_map]
    exact List.map_congr_left fun _ _ => by simp only [matchesThen]
  | seq first second ihFirst ihSecond =>
    rw [row, ihSecond, ihFirst]
    exact List.map_congr_left fun _ _ => by simp only [matchesThen]
  | either left right ihLeft ihRight =>
    rw [row, ihLeft, ihRight, List.zipWith_map, List.zipWith_self]
    exact List.map_congr_left fun _ _ => by simp only [matchesThen]

/-- A pattern matches bytes when nothing is left of them. -/
theorem accepts_eq (pattern : BytePattern) (bytes : List UInt8) :
    pattern.accepts bytes = pattern.matchesThen List.isEmpty bytes := by
  rw [accepts, row_map, headD_map_ends]

/-! ## Lists of patterns -/

/-- Patterns one after another. -/
def sequence : List BytePattern → BytePattern
  | [] => empty
  | first :: rest => seq first (sequence rest)

/-- Patterns beside one another; without any, no bytes. -/
def alternatives : List BytePattern → BytePattern
  | [] => empty
  | [last] => last
  | first :: rest => either first (alternatives rest)

end BytePattern

end WidthCheck
