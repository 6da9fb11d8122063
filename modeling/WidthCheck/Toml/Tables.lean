import WidthCheck.Toml.Value

/-!
# Assembling tables

A document and an inline table are rows of definitions that have to fit together: no key is defined
twice, a header does not open a table that is there already, and dotted keys do not reach into
tables that were opened by a header.
-/

namespace WidthCheck.Toml

/-- What a key stands for while a table is assembled. -/
inductive Item where
  | value (v : Value)
  /-- A table. It is implicit until a header of its own opens it, and dotted if dotted keys made
  it. -/
  | table (implicit dotted : Bool) (entries : List (String × Item))
  /-- Tables opened by double headers of the same name. -/
  | tables (rows : List (List (String × Item)))

/-- The definitions of one table. -/
abbrev Entries := List (String × Item)

namespace Entries

/-- Replaces the entry of a key, or adds one. -/
def put (key : String) (item : Item) (entries : Entries) : Entries :=
  if entries.any (·.1 == key) then
    entries.map fun entry => if entry.1 == key then (key, item) else entry
  else entries ++ [(key, item)]

/-- Changes the last of several rows. -/
def changeLast (change : Entries → Option Entries) (rows : List Entries) :
    Option (List Entries) := do
  let last ← rows.getLast?
  return rows.dropLast ++ [← change last]

/-- Defines `path.key` as a value in a table. Tables on the way are made as dotted ones; one that a
header has opened is closed to dotted keys. -/
def define (key : String) (value : Value) : List String → Entries → Option Entries
  | [], entries => if entries.any (·.1 == key) then none else some (put key (.value value) entries)
  | name :: path, entries =>
      match entries.lookup name with
      | none => do return put name (.table true true (← define key value path [])) entries
      | some (.value _) => none
      | some (.tables rows) =>
          if path = [] then none
          else do return put name (.tables (← changeLast (define key value path) rows)) entries
      | some (.table implicit dotted inner) =>
          if !implicit || (path = [] && !dotted) then none
          else do return put name (.table implicit dotted (← define key value path inner)) entries

/-- Changes the table at a path of headers. Tables on the way are made as implicit ones; of several
rows the last is meant. -/
def changeAt (change : Entries → Option Entries) : List String → Entries → Option Entries
  | [], entries => change entries
  | name :: path, entries =>
      match entries.lookup name with
      | none => do return put name (.table true false (← changeAt change path [])) entries
      | some (.value _) => none
      | some (.tables rows) => do
          return put name (.tables (← changeLast (changeAt change path) rows)) entries
      | some (.table implicit dotted inner) => do
          return put name (.table implicit dotted (← changeAt change path inner)) entries

/-- Opens the table of a header. -/
def openTable (key : String) (entries : Entries) : Option Entries :=
  match entries.lookup key with
  | none => some (put key (.table false false []) entries)
  | some (.table true false inner) => some (put key (.table false false inner) entries)
  | some _ => none

/-- Opens a new row of the tables of a double header. -/
def openRow (key : String) (entries : Entries) : Option Entries :=
  match entries.lookup key with
  | none => some (put key (.tables [[]]) entries)
  | some (.tables rows) => some (put key (.tables (rows ++ [[]])) entries)
  | some _ => none

end Entries

mutual

def Item.toValue : Item → Value
  | .value v => v
  | .table _ _ entries => .table (entriesValues entries)
  | .tables rows => .arr (rowsValues rows)

def entriesValues : List (String × Item) → List (String × Value)
  | [] => []
  | (key, item) :: rest => (key, item.toValue) :: entriesValues rest

def rowsValues : List (List (String × Item)) → List Value
  | [] => []
  | row :: rest => .table (entriesValues row) :: rowsValues rest

end

/-- A key with its dotted path: all names but the last, and the last. -/
structure Key where
  path : List String
  last : String

/-- One definition of a document. -/
inductive Expression where
  | pair (key : Key) (value : Value)
  /-- A header `[path.last]`. -/
  | header (key : Key)
  /-- A double header `[[path.last]]`. -/
  | rowHeader (key : Key)

/-- The table of an inline table. -/
def inlineTable? (pairs : List (Key × Value)) : Option Value := do
  let entries ← pairs.foldlM
    (fun entries (key, value) => Entries.define key.last value key.path entries) []
  return .table (entriesValues entries)

/-- A document so far: its tables, and the path of the header that definitions belong to. -/
structure Document where
  entries : Entries := []
  current : List String := []

/-- Adds a definition to a document. -/
def Document.add? (doc : Document) : Expression → Option Document
  | .pair key value => do
      let entries ←
        Entries.changeAt (Entries.define key.last value key.path) doc.current doc.entries
      return { doc with entries }
  | .header key => do
      let entries ← Entries.changeAt (Entries.openTable key.last) key.path doc.entries
      return { entries, current := key.path ++ [key.last] }
  | .rowHeader key => do
      let entries ← Entries.changeAt (Entries.openRow key.last) key.path doc.entries
      return { entries, current := key.path ++ [key.last] }

/-- The table of a whole document. -/
def documentTable? (expressions : List Expression) : Option Value := do
  let doc ← expressions.foldlM Document.add? {}
  return .table (entriesValues doc.entries)

end WidthCheck.Toml
