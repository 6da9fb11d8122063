import WidthCheck.CType.Print
import WidthCheck.ParseTree.Source

/-!
# Diagnostics

A diagnostic is a message template with arguments, at a location. In a template `%0`, `%1`, …
stand for the arguments and `%%` for a percent sign. Arguments are put in as they are: a percent
sign in an argument stands for itself.
-/

namespace WidthCheck

/-- An argument of a diagnostic. -/
inductive DiagArg where
  /-- The name of a declaration. -/
  | decl (name : String)
  | type (ty : QualType)
  | text (content : String)
deriving DecidableEq, Repr

/-- Declarations and types are shown in quotes, texts as they are. -/
def DiagArg.render : DiagArg → List Char
  | decl name => if name = "" then "'(unnamed)'".toList else '\x27' :: name.toList ++ ['\x27']
  | type ty => '\x27' :: ty.print ++ ['\x27']
  | text content => content.toList

/-- A message at a location. -/
structure Diagnostic where
  location : Option Position
  template : String
  args : List DiagArg
deriving DecidableEq, Repr

namespace Diagnostic

/-- The value of a row of decimal digits. -/
def decimalValue (digits : List Char) : Nat :=
  digits.foldl (fun value c => value * 10 + (c.toNat - '0'.toNat)) 0

/-- Placeholders with this number or a higher one have no argument. -/
def indexLimit : Nat := Nat.pow 2 64

/-- The text for a placeholder with these digits. Without an argument it is kept as written. -/
def expandIndex (args : List DiagArg) (digits : List Char) : List Char :=
  let index := decimalValue digits
  match if index < indexLimit then args[index]? else none with
  | some arg => arg.render
  | none => '%' :: digits

/-- Puts the arguments into a template. -/
def expand (args : List DiagArg) : List Char → List Char
  | [] => []
  | '%' :: '%' :: rest => '%' :: expand args rest
  | '%' :: c :: rest =>
      if c.isDigit then
        expandIndex args (c :: rest.takeWhile Char.isDigit) ++
          expand args (rest.dropWhile Char.isDigit)
      else '%' :: expand args (c :: rest)
  | c :: rest => c :: expand args rest
termination_by template => template.length
decreasing_by
  all_goals
    have := (List.dropWhile_sublist Char.isDigit (l := rest)).length_le
    simp only [List.length_cons]
    omega

/-- The message of a diagnostic. -/
def message (d : Diagnostic) : String := String.ofList (expand d.args d.template.toList)

end Diagnostic

end WidthCheck
