import WidthCheck.CompilationUnit

/-!
# Matchers

Rules say by matchers which entities of a compilation unit they want to see.
-/

namespace WidthCheck

/-- A predicate on types. -/
inductive TypeMatcher where
  /-- No type. -/
  | never
  /-- Integer types, once aliases are looked through. -/
  | integer
  /-- References whose referee matches. -/
  | references (inner : TypeMatcher)
  | either (left right : TypeMatcher)
deriving DecidableEq, Repr

namespace TypeMatcher

/-- Matches what one of the matchers matches. -/
def anyOf (matchers : List TypeMatcher) : TypeMatcher := matchers.foldr either never

def accepts (types : TypeTable) : TypeMatcher → QualType → Bool
  | never, _ => false
  | integer, ty => types.isInteger ty
  | references inner, .layer .lvalueRef ty _ => inner.accepts types ty
  | references inner, .layer .rvalueRef ty _ => inner.accepts types ty
  | references _, _ => false
  | either left right, ty => left.accepts types ty || right.accepts types ty

end TypeMatcher

/-- A predicate on entities: the entity's kind, and a predicate on its type. -/
inductive EntityMatcher where
  /-- Value declarations of a matching type. -/
  | value (type : TypeMatcher)
  /-- Functions with a matching return type. -/
  | function (type : TypeMatcher)
  /-- Casts to a matching type. -/
  | cast (type : TypeMatcher)
deriving DecidableEq, Repr

def EntityMatcher.accepts (types : TypeTable) : EntityMatcher → Entity → Bool
  | value m, .value decl => m.accepts types decl.ty
  | function m, .function decl => m.accepts types decl.returnType
  | cast m, .cast expr => m.accepts types expr.destination
  | _, _ => false

/-- A matcher and the name under which the rule gets the entity. -/
structure BoundMatcher where
  matcher : EntityMatcher
  id : String
deriving DecidableEq, Repr

/-- An entity that a matcher has accepted. -/
structure Match where
  id : String
  entity : Entity
deriving DecidableEq, Repr

namespace Match

/-- The entity, if it is bound under this name. -/
def entity? (m : Match) (id : String) : Option Entity := if m.id = id then some m.entity else none

/-- The value declaration bound under this name. -/
def value? (m : Match) (id : String) : Option ValueDecl :=
  match m.entity? id with
  | some (.value decl) => some decl
  | _ => none

/-- The function bound under this name. -/
def function? (m : Match) (id : String) : Option FunctionDecl :=
  match m.entity? id with
  | some (.function decl) => some decl
  | _ => none

/-- The cast bound under this name. -/
def cast? (m : Match) (id : String) : Option StaticCast :=
  match m.entity? id with
  | some (.cast expr) => some expr
  | _ => none

end Match

/-- The matches of one entity, in the order of the matchers. -/
def matchesOf (types : TypeTable) (matchers : List BoundMatcher) (entity : Entity) : List Match :=
  (matchers.filter (·.matcher.accepts types entity)).map fun bound => { id := bound.id, entity }

/-- All matches in a unit, by entity and then by matcher. -/
def CompilationUnit.findMatches (unit : CompilationUnit) (matchers : List BoundMatcher) :
    List Match :=
  unit.entities.toList.flatMap (matchesOf unit.types matchers)

end WidthCheck
