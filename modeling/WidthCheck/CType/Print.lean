import WidthCheck.CType.Basic

/-!
# Printing types

Types are printed the way a compiler prints them: `long`, `const long &`, `long [3]`,
`long (*)()`. A type is printed around the place of its declarator, in a left and a right part.
-/

namespace WidthCheck.QualType

/-- Whether a text ends in a pointer or reference sign. -/
def endsInSign (cs : List Char) : Bool :=
  match cs.getLast? with
  | some c => c = '*' ∨ c = '&'
  | none => false

/-- Whether the declarator of a layer above this type needs parentheses. -/
def bindsTighter : QualType → Bool
  | .layer (.array _) _ _ => true
  | .layer .function _ _ => true
  | _ => false

/-- Puts a pointer or reference sign between the two parts of the type below it. -/
def printSign (below : QualType) (sign quals : List Char) (parts : List Char × List Char) :
    List Char × List Char :=
  let (left, right) := parts
  let op := sign ++ quals
  if below.bindsTighter then (left ++ [' ', '('] ++ op, ')' :: right)
  else if endsInSign left then (left ++ op, right)
  else (left ++ ' ' :: op, right)

/-- The printed form to the left and to the right of the declarator. -/
def printParts : QualType → List Char × List Char
  | .base _ name q =>
      (if q.isEmpty then name.toList else q.spelling ++ ' ' :: name.toList, [])
  | .layer l t q =>
      match l with
      | .pointer => printSign t ['*'] q.spelling t.printParts
      | .lvalueRef => printSign t ['&'] q.spelling t.printParts
      | .rvalueRef => printSign t ['&', '&'] q.spelling t.printParts
      | .array bound =>
          (t.printParts.1, '[' :: (bound.getD "").toList ++ ']' :: t.printParts.2)
      | .function => (t.printParts.1, '(' :: ')' :: t.printParts.2)

/-- Joins the two parts of a printed type, with a space before a bracket that follows a name. -/
def joinParts (left right : List Char) : List Char :=
  match right with
  | [] => left
  | c :: _ =>
      if c = '[' ∨ (c = '(' ∧ left.getLast? ≠ some '(') then
        if endsInSign left ∨ left.getLast? = some '(' then left ++ right
        else left ++ ' ' :: right
      else left ++ right

/-- The printed form of a type, as characters. -/
def print (t : QualType) : List Char := joinParts t.printParts.1 t.printParts.2

/-- The printed form of a type. -/
def text (t : QualType) : String := String.ofList t.print

end WidthCheck.QualType
