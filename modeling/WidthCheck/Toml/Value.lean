/-!
# TOML values
-/

namespace WidthCheck.Toml

/-- A value of a TOML document. Floating point numbers and dates are kept as written. -/
inductive Value where
  | str (value : String)
  | int (value : Int)
  | float (text : String)
  | bool (value : Bool)
  | datetime (text : String)
  | arr (items : List Value)
  | table (members : List (String × Value))
deriving Inhabited, Repr

namespace Value

def str? : Value → Option String
  | str value => some value
  | _ => none

def bool? : Value → Option Bool
  | bool value => some value
  | _ => none

def items? : Value → Option (List Value)
  | arr items => some items
  | _ => none

def members? : Value → Option (List (String × Value))
  | table members => some members
  | _ => none

/-- The fields of a record, in order: from a table by name, from an array by place. What is not a
field of the record is passed over; a date is a record without any of the fields. -/
def fields? (names : List String) : Value → Option (List (Option Value))
  | table members => some (names.map fun name => members.lookup name)
  | arr items => some ((List.range names.length).map fun i => items[i]?)
  | datetime _ => some (names.map fun _ => none)
  | _ => none

end Value

end WidthCheck.Toml
