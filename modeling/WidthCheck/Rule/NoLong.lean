import WidthCheck.Rule.Basic

/-!
# The rule `no-long`

`long` has 32 bits on some platforms and 64 on others. The rule flags `long` and `unsigned long`
where they are written: in declarations, as return types and as destinations of `static_cast`.
References are looked through, aliases are not. Declarations in an implicit instantiation are left
alone, since there the type was written as a template parameter.
-/

namespace WidthCheck

/-- An integer type whose width depends on the platform. -/
inductive AmbiguousType where
  | long
  | unsignedLong
deriving DecidableEq, Repr

namespace AmbiguousType

def spelling : AmbiguousType → String
  | long => "long"
  | unsignedLong => "unsigned long"

def ofSpelling? (spelling : String) : Option AmbiguousType :=
  if spelling = "long" then some long
  else if spelling = "unsigned long" then some unsignedLong
  else none

/-- What to write instead. -/
def remediation : AmbiguousType → String
  | long => "Prefer int or int64_t to long"
  | unsignedLong => "Prefer unsigned int or uint64_t to unsigned long"

/-- The ambiguous type that a written type is, or refers to. -/
def classify? (ty : QualType) : Option AmbiguousType :=
  match ty.referee with
  | .base .builtin spelling _ => ofSpelling? spelling
  | _ => none

end AmbiguousType

namespace NoLong

/-- Integers and references to integers. -/
def integerOrReference : TypeMatcher := .anyOf [.integer, .references .integer]

/-- The names under which the rule sees declarations, functions and casts. -/
def declId : String := "decl"
def returnId : String := "return"
def castId : String := "cast"

def matchers : List BoundMatcher :=
  [⟨.value integerOrReference, declId⟩, ⟨.function integerOrReference, returnId⟩,
    ⟨.cast integerOrReference, castId⟩]

/-- Whether a context is a function made from a template because it is used. -/
def isImplicitInstantiation (context : Option DeclContext) : Bool :=
  match context with
  | some c => c.kind.isFunctionLike && c.specialization == .implicitInstantiation
  | none => false

/-- The finding at a value declaration. -/
def checkValue (unit : CompilationUnit) (decl : ValueDecl) : Option Diagnostic :=
  match decl.location, AmbiguousType.classify? decl.ty with
  | some position, some type =>
      if isImplicitInstantiation (unit.context? decl.context) then none
      else some {
        location := some position
        template := "Variable %0 declared as %1.  %2."
        args := [.decl decl.name, .type decl.ty, .text type.remediation] }
  | _, _ => none

/-- The finding at a function. -/
def checkFunction (decl : FunctionDecl) : Option Diagnostic :=
  match decl.location, AmbiguousType.classify? decl.returnType with
  | some position, some type =>
      some {
        location := some position
        template := "Function %0 declared as returning %1.  %2."
        args := [.decl decl.name, .type decl.returnType, .text type.remediation] }
  | _, _ => none

/-- The finding at a cast, at the place of its destination type. -/
def checkCast (expr : StaticCast) : Option Diagnostic :=
  match expr.typeLocation, AmbiguousType.classify? expr.destination with
  | some position, some type =>
      some {
        location := some position
        template := "Static cast to %0.  %1."
        args := [.type expr.destination.referee, .text type.remediation] }
  | _, _ => none

/-- The findings for one match. -/
def check (unit : CompilationUnit) (m : Match) : List Diagnostic :=
  match m.value? declId with
  | some decl => (checkValue unit decl).toList
  | none =>
    match m.function? returnId with
    | some decl => (checkFunction decl).toList
    | none =>
      match m.cast? castId with
      | some expr => (checkCast expr).toList
      | none => []

end NoLong

/-- The rule that flags `long` and `unsigned long`. -/
def Rule.noLong (severity : Severity) : Rule where
  name := "no-long"
  code := "WL001"
  description := "Flags long and unsigned long in favor of fixed-width integer types"
  severity := severity
  matchers := NoLong.matchers
  check := NoLong.check

end WidthCheck
