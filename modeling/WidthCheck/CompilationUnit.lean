import WidthCheck.CType.Table
import WidthCheck.ParseTree.Source

/-!
# Compilation units

What the analysis keeps of a source file: value declarations, functions and `static_cast`
expressions, each with the declaration context it stands in.
-/

namespace WidthCheck

/-- What opens a declaration context. -/
inductive ContextKind where
  /-- The file itself. -/
  | file
  | namespaceBody
  /-- A class, struct or union. -/
  | record
  | function
  /-- A member function, or the call operator of a lambda. -/
  | method
  | constructor
  | conversion
  | destructor
  | deductionGuide
deriving DecidableEq, Repr

def ContextKind.isFunctionLike : ContextKind → Bool
  | .function | .method | .constructor | .conversion | .destructor | .deductionGuide => true
  | _ => false

/-- How a function came to exist with respect to templates. -/
inductive Specialization where
  /-- An ordinary function or the pattern of a template. -/
  | undeclared
  /-- Made from a template because it is used. -/
  | implicitInstantiation
  | explicitSpecialization
  | explicitInstantiationDeclaration
  | explicitInstantiationDefinition
deriving DecidableEq, Repr

/-- A scope that contains declarations. -/
structure DeclContext where
  kind : ContextKind
  /-- Empty if the scope has no name. -/
  name : String
  specialization : Specialization
  /-- The index of the enclosing context; the file has none. -/
  parent : Option Nat
deriving DecidableEq, Repr

/-- What a value declaration declares. -/
inductive ValueKind where
  /-- A variable, also a local one or a static member. -/
  | var
  /-- A data member of each object. -/
  | field
  | parameter
  /-- A parameter of a template that is not a type. -/
  | templateParameter
deriving DecidableEq, Repr

/-- A declaration of a variable, field or parameter. -/
structure ValueDecl where
  /-- Empty for an unnamed parameter. -/
  name : String
  kind : ValueKind
  ty : QualType
  location : Option Position
  context : Nat
deriving DecidableEq, Repr

/-- A declaration or definition of a function. -/
structure FunctionDecl where
  /-- The name, with the template arguments of a specialization. -/
  name : String
  kind : ContextKind
  returnType : QualType
  location : Option Position
  /-- The context that the function opens. -/
  context : Nat
deriving DecidableEq, Repr

/-- An expression `static_cast<T>(e)`. -/
structure StaticCast where
  destination : QualType
  /-- Where the destination type is written. -/
  typeLocation : Option Position
  location : Option Position
  context : Nat
deriving DecidableEq, Repr

/-- Something that rules can match on. -/
inductive Entity where
  | value (decl : ValueDecl)
  | function (decl : FunctionDecl)
  | cast (expr : StaticCast)
deriving DecidableEq, Repr

/-- The context of a file. -/
def DeclContext.file : DeclContext :=
  { kind := .file, name := "", specialization := .undeclared, parent := none }

/-- Everything kept of one source file. -/
structure CompilationUnit where
  contexts : Array DeclContext := #[.file]
  /-- In the order in which the file was walked. -/
  entities : Array Entity := #[]
  types : TypeTable := {}
deriving Inhabited

namespace CompilationUnit

def context? (unit : CompilationUnit) (index : Nat) : Option DeclContext := unit.contexts[index]?

def addContext (unit : CompilationUnit) (context : DeclContext) : CompilationUnit :=
  { unit with contexts := unit.contexts.push context }

def addEntity (unit : CompilationUnit) (entity : Entity) : CompilationUnit :=
  { unit with entities := unit.entities.push entity }

/-- The value declarations, in order. -/
def values (unit : CompilationUnit) : List ValueDecl :=
  unit.entities.toList.filterMap fun
    | .value decl => some decl
    | _ => none

/-- The functions, in order. -/
def functions (unit : CompilationUnit) : List FunctionDecl :=
  unit.entities.toList.filterMap fun
    | .function decl => some decl
    | _ => none

/-- The casts, in order. -/
def casts (unit : CompilationUnit) : List StaticCast :=
  unit.entities.toList.filterMap fun
    | .cast expr => some expr
    | _ => none

end CompilationUnit

end WidthCheck
