import WidthCheck.CompilationUnit

/-!
# The state of a lowering

Lowering walks a parse tree and builds a compilation unit. What holds for a part of the tree (the
enclosing context, the type parameters in effect) is handed down in a `Scope`; what the walk adds
or uses up is kept in a `State`.
-/

namespace WidthCheck.Lowering

/-- A parameter of a template. -/
structure TemplateParam where
  /-- Empty unless it is a type parameter. -/
  name : String
  isType : Bool
  default : Option QualType
deriving DecidableEq, Repr, Inhabited

/-- A parameter that is not a type. -/
def TemplateParam.ofValue : TemplateParam := { name := "", isType := false, default := none }

/-- A function template, with what is needed to lower its pattern again. -/
structure FunctionTemplate where
  name : String
  params : List TemplateParam
  /-- The types of the function's parameters. -/
  paramTypes : List QualType
  /-- The declaration or definition of the function. -/
  node : Node
  /-- The context the function is declared in. -/
  context : Nat
  /-- The names of the enclosing records, the innermost first. -/
  records : List String
deriving Inhabited

namespace FunctionTemplate

/-- The names of the type parameters, in order. -/
def typeParams (t : FunctionTemplate) : List String := (t.params.filter (·.isType)).map (·.name)

def hasBody (t : FunctionTemplate) : Bool := t.node.hasField .body

/-- Whether two declarations count as declaring the same template: they agree in name and in the
numbers of parameters. -/
def sameKey (s t : FunctionTemplate) : Bool :=
  s.name == t.name && s.params.length == t.params.length &&
    s.paramTypes.length == t.paramTypes.length

/-- Adds a template to those known. A template known already keeps its place, and is replaced only
by a definition. -/
def register (t : FunctionTemplate) : List FunctionTemplate → List FunctionTemplate
  | [] => [t]
  | s :: rest => if s.sameKey t then (if t.hasBody then t else s) :: rest else s :: t.register rest

end FunctionTemplate

/-- A place that names a function template: a call or an explicit instantiation. -/
structure TemplateUse where
  name : String
  /-- The written template arguments; `none` for one that is not known to be a type. -/
  explicit : List (Option QualType)
  /-- The types of the call's arguments, as far as they are known. -/
  callArgs : List (Option QualType)
  kind : Specialization
  /-- The number of instantiations the place is nested in. -/
  depth : Nat
deriving DecidableEq, Repr

/-- Names with their types, the newest first. -/
abbrev Bindings := List (String × QualType)

/-- What holds for the part of the tree that is being lowered. -/
structure Scope where
  source : Source
  /-- The index of the enclosing context. -/
  context : Nat := 0
  /-- The names of the enclosing records, the innermost first. -/
  records : List String := []
  /-- The type parameters of the enclosing templates. -/
  typeParams : List (List String) := []
  /-- The arguments of the template that is being instantiated. -/
  bindings : Bindings := []
  /-- The number of enclosing instantiations. -/
  depth : Nat := 0
  /-- Whether the bodies of functions are left out. -/
  skipBodies : Bool := false

namespace Scope

/-- Whether a name denotes a type by a binding or as a type parameter. -/
def isTypeName (scope : Scope) (name : String) : Bool :=
  (scope.bindings.lookup name).isSome || scope.typeParams.any (·.contains name)

/-- The type that a name denotes. -/
def resolve (scope : Scope) (name : String) : QualType :=
  match scope.bindings.lookup name with
  | some arg => arg
  | none =>
      if scope.typeParams.any (·.contains name) then .templateParam name else .named name

end Scope

/-- What a lowering has built and what it keeps for later. -/
structure State where
  unit : CompilationUnit := {}
  /-- The declared names with their types, the innermost block first. -/
  frames : List Bindings := [[]]
  /-- How the next function came to exist. -/
  specialization : Specialization := .undeclared
  /-- The parameters of a template whose function is still to come. -/
  pendingTemplate : Option (List TemplateParam) := none
  /-- The printed arguments of the instantiation whose function is still to come. -/
  instantiationArgs : Option String := none
  /-- The records that have been defined. -/
  knownRecords : List String := []
  templates : List FunctionTemplate := []
  uses : Array TemplateUse := #[]
  /-- The templates that have been instantiated, by index and arguments. -/
  instantiated : List (Nat × List QualType) := []
  /-- The line at which the code was first found to be nested too deep. -/
  tooDeepAt : Option Nat := none
deriving Inhabited

end Lowering

/-- A step of lowering. -/
abbrev Lowering := StateM Lowering.State

namespace Lowering

/-- The kind of the enclosing context. -/
def currentKind (scope : Scope) : Lowering ContextKind := do
  return match (← get).unit.context? scope.context with
    | some context => context.kind
    | none => .file

/-- Opens a context inside the one of `scope` and returns the scope within. -/
def enterContext (scope : Scope) (kind : ContextKind) (name : String)
    (specialization : Specialization) : Lowering Scope :=
  modifyGet fun s =>
    let context := { kind, name, specialization, parent := some scope.context }
    ({ scope with context := s.unit.contexts.size }, { s with unit := s.unit.addContext context })

def addEntity (entity : Entity) : Lowering Unit :=
  modify fun s => { s with unit := s.unit.addEntity entity }

def addAlias (name : String) (target : QualType) : Lowering Unit :=
  modify fun s => { s with unit := { s.unit with types := s.unit.types.addAlias name target } }

def addEnum (name : String) (isScoped : Bool) : Lowering Unit :=
  modify fun s => { s with unit := { s.unit with types := s.unit.types.addEnum name isScoped } }

def addRecord (name : String) : Lowering Unit :=
  modify fun s => { s with knownRecords := name :: s.knownRecords }

def addUse (use : TemplateUse) : Lowering Unit :=
  modify fun s => { s with uses := s.uses.push use }

def registerTemplate (template : FunctionTemplate) : Lowering Unit :=
  modify fun s => { s with templates := template.register s.templates }

/-- Runs a step inside a block of its own: the names it declares are dropped afterwards. -/
def withFrame {α : Type} (step : Lowering α) : Lowering α := do
  modify fun s => { s with frames := [] :: s.frames }
  let result ← step
  modify fun s => { s with frames := s.frames.tail }
  return result

/-- Adds a name to the innermost block. -/
def declareName (name : String) (ty : QualType) : Lowering Unit :=
  modify fun s => { s with frames := match s.frames with
    | frame :: rest => ((name, ty) :: frame) :: rest
    | [] => [] }

/-- The type of a name in scope. -/
def lookupName (name : String) : Lowering (Option QualType) := do
  return (← get).frames.findSome? (·.lookup name)

/-- Records a value declaration and, if it has a name, puts the name in scope. -/
def declare (scope : Scope) (name : String) (kind : ValueKind) (ty : QualType)
    (location : Option Position) : Lowering Unit := do
  if name ≠ "" then declareName name ty
  addEntity (.value { name, kind, ty, location, context := scope.context })

/-- Takes the parameters of the template whose function has come. -/
def takePendingTemplate : Lowering (Option (List TemplateParam)) :=
  modifyGet fun s => (s.pendingTemplate, { s with pendingTemplate := none })

/-- Takes the specialization of the function that has come. -/
def takeSpecialization : Lowering Specialization :=
  modifyGet fun s => (s.specialization, { s with specialization := .undeclared })

/-- Takes the printed arguments of the instantiation whose function has come. -/
def takeInstantiationArgs : Lowering (Option String) :=
  modifyGet fun s => (s.instantiationArgs, { s with instantiationArgs := none })

/-- Notes that a node is nested too deep. Only the first one is kept. -/
def noteTooDeep (scope : Scope) (node : Node) : Lowering Unit :=
  modify fun s => { s with
    tooDeepAt := s.tooDeepAt.or (some (scope.source.lineAt node.span.start)) }

end Lowering

end WidthCheck
