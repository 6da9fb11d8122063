/-!
# Searching in texts

Occurrences of one text in another, as splits of the text around the occurrence.
-/

namespace WidthCheck.Text

/-- Splits `cs` around the first occurrence of `pattern`: what stands before it and after it. -/
def splitFirst (pattern : List Char) : List Char → Option (List Char × List Char)
  | [] => if pattern = [] then some ([], []) else none
  | c :: cs =>
      match pattern.isPrefixOf? (c :: cs) with
      | some rest => some ([], rest)
      | none => (splitFirst pattern cs).map fun (before, after) => (c :: before, after)

/-- Whether `pattern` occurs in `cs`. -/
def contains (pattern cs : List Char) : Bool := (splitFirst pattern cs).isSome

/-- Drops leading copies of the pair `a`, `b`. -/
def dropPairs (a b : Char) : List Char → List Char
  | c :: d :: cs => if c = a ∧ d = b then dropPairs a b cs else c :: d :: cs
  | cs => cs

/-- What stands after the last occurrence of the pair `a`, `b`, or the whole text. The text is
given backwards; `seen` is what has been passed, forwards. -/
def afterLastPairAux (a b : Char) : List Char → List Char → List Char
  | c :: d :: cs, seen =>
      if d = a ∧ c = b then seen else afterLastPairAux a b (d :: cs) (c :: seen)
  | [c], seen => c :: seen
  | [], seen => seen

/-- What stands after the last occurrence of the pair `a`, `b`, or the whole text if there is
none. -/
def afterLastPair (a b : Char) (cs : List Char) : List Char := afterLastPairAux a b cs.reverse []

/-- Removes the occurrences of the pair `a`, `b`, from left to right. -/
def erasePairs (a b : Char) : List Char → List Char
  | c :: d :: cs => if c = a ∧ d = b then erasePairs a b cs else c :: erasePairs a b (d :: cs)
  | cs => cs

end WidthCheck.Text
