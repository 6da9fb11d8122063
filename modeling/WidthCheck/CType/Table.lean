import WidthCheck.CType.Builtin

/-!
# Type tables

The aliases and enumerations that a program declares, and which types are integers under them.
-/

namespace WidthCheck

/-- The aliases and enumerations declared so far, the newest first. -/
structure TypeTable where
  aliases : List (String × QualType) := []
  /-- Each enumeration with whether it is scoped. -/
  enums : List (String × Bool) := []
deriving Inhabited

namespace TypeTable

/-- The number of aliases that are looked through. -/
def aliasLimit : Nat := 32

def addAlias (table : TypeTable) (name : String) (target : QualType) : TypeTable :=
  { table with aliases := (name, target) :: table.aliases }

def addEnum (table : TypeTable) (name : String) (isScoped : Bool) : TypeTable :=
  { table with enums := (name, isScoped) :: table.enums }

/-- The part of a name after the last `::`. -/
def unqualifiedName (name : String) : String :=
  String.ofList (Text.afterLastPair ':' ':' name.toList)

/-- Looks a name up as it is written, then without its qualifiers. -/
def find? {α : Type} (entries : List (String × α)) (name : String) : Option α :=
  match entries.lookup name with
  | some found => some found
  | none => entries.lookup (unqualifiedName name)

/-- The type an alias stands for. -/
def alias? (table : TypeTable) (name : String) : Option QualType := find? table.aliases name

/-- Whether the enumeration of this name is scoped, if there is one. -/
def enumScoped? (table : TypeTable) (name : String) : Option Bool := find? table.enums name

/-- Whether a type is an integer type once at most `steps` aliases are looked through. A standard
alias comes before an enumeration, an enumeration before an alias of the program. -/
def isIntegerWithin (table : TypeTable) : Nat → QualType → Bool
  | _, .base .builtin spelling _ => Builtin.isInteger spelling
  | steps, .base .named name _ =>
      if isStandardIntegerAlias name then true
      else match table.enumScoped? name with
        | some isScoped => !isScoped
        | none =>
            match steps, table.alias? name with
            | steps + 1, some target => table.isIntegerWithin steps target
            | _, _ => false
  | _, _ => false

/-- Whether a type is an integer type once aliases are looked through. Qualifiers do not count;
pointers, references, arrays, functions and template parameters are no integers. -/
def isInteger (table : TypeTable) (ty : QualType) : Bool := table.isIntegerWithin aliasLimit ty

end TypeTable

end WidthCheck
