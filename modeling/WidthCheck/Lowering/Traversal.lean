import WidthCheck.Lowering.Names
import WidthCheck.Lowering.Walk

/-!
# A traversal that keeps all of its state

`Walk` hands down in a `Scope` what holds for a part of the tree. A traversal does the same work
with one record for everything: what holds for a part is a field like any other. A step that goes
into a part sets the field, and has to put it back when it comes out.
-/

namespace WidthCheck.Lowering

/-- All that a traversal knows at one moment. -/
structure Traversal where
  source : Source
  unit : CompilationUnit := {}
  /-- The index of the enclosing context. -/
  context : Nat := 0
  specialization : Specialization := .undeclared
  /-- The type parameters of the enclosing templates. -/
  typeParams : List (List String) := []
  /-- The arguments of the template that is being instantiated. -/
  bindings : Bindings := []
  instantiationArgs : Option String := none
  /-- The names of the enclosing records, the innermost first. -/
  records : List String := []
  knownRecords : List String := []
  frames : List Bindings := [[]]
  pendingTemplate : Option (List TemplateParam) := none
  templates : List FunctionTemplate := []
  uses : Array TemplateUse := #[]
  instantiated : List (Nat × List QualType) := []
  /-- The number of enclosing instantiations. -/
  depth : Nat := 0
  skipBodies : Bool := false
  /-- The number of levels of the tree that have been entered. -/
  nesting : Nat := 0
  nestingExceeded : Bool := false
  /-- The lines of the warnings about nesting, in the order in which they were given. -/
  warnings : List Nat := []
  /-- The largest number of levels that were entered at one time. -/
  deepest : Nat := 0

/-- A step of a traversal. -/
abbrev Traverse := StateM Traversal

namespace Traversal

/-- What holds for the part of the tree that the traversal is in. -/
def scope (self : Traversal) : Scope where
  source := self.source
  context := self.context
  records := self.records
  typeParams := self.typeParams
  bindings := self.bindings
  depth := self.depth
  skipBodies := self.skipBodies

/-- What the traversal has built and keeps for later. -/
def state (self : Traversal) : State where
  unit := self.unit
  frames := self.frames
  specialization := self.specialization
  pendingTemplate := self.pendingTemplate
  instantiationArgs := self.instantiationArgs
  knownRecords := self.knownRecords
  templates := self.templates
  uses := self.uses
  instantiated := self.instantiated
  tooDeepAt := self.warnings.head?

/-- The traversal with these things built and kept. Warnings are given by `descend` only. -/
def withState (self : Traversal) (s : State) : Traversal :=
  { self with
    unit := s.unit
    frames := s.frames
    specialization := s.specialization
    pendingTemplate := s.pendingTemplate
    instantiationArgs := s.instantiationArgs
    knownRecords := s.knownRecords
    templates := s.templates
    uses := s.uses
    instantiated := s.instantiated }

/-- What holds at this moment. -/
def here : Traverse Scope := do return (← get).scope

/-- A step that goes into no part of the tree, taken with what holds at this moment. -/
def onState {α : Type} (step : Scope → Lowering α) : Traverse α :=
  modifyGet fun self =>
    let (result, s) := step self.scope self.state
    (result, self.withState s)

def pushFrame : Traverse Unit :=
  modify fun self => { self with frames := [] :: self.frames }

/-- Drops the innermost block, unless it is the only one. -/
def popFrame : Traverse Unit :=
  modify fun self =>
    if 1 < self.frames.length then { self with frames := self.frames.tail } else self

/-- Opens a context inside the present one, goes into it, and returns the one that was left. -/
def enterContext (kind : ContextKind) (name : String) (specialization : Specialization) :
    Traverse Nat :=
  modifyGet fun self =>
    let context := { kind, name, specialization, parent := some self.context }
    (self.context,
      { self with unit := self.unit.addContext context, context := self.unit.contexts.size })

def setContext (context : Nat) : Traverse Unit :=
  modify fun self => { self with context }

def pushRecord (name : String) : Traverse Unit :=
  modify fun self => { self with records := name :: self.records }

def popRecord : Traverse Unit :=
  modify fun self => { self with records := self.records.tail }

def pushTypeParams (names : List String) : Traverse Unit :=
  modify fun self => { self with typeParams := names :: self.typeParams }

def popTypeParams : Traverse Unit :=
  modify fun self => { self with typeParams := self.typeParams.tail }

def setSpecialization (specialization : Specialization) : Traverse Unit :=
  modify fun self => { self with specialization }

def setPendingTemplate (params : Option (List TemplateParam)) : Traverse Unit :=
  modify fun self => { self with pendingTemplate := params }

/-- Enters one more level of the tree, or refuses at the limit. The first refusal gives a
warning. -/
def descend (node : Node) : Traverse Bool := do
  let self ← get
  if nestingLimit ≤ self.nesting then
    if !self.nestingExceeded then
      set { self with
        nestingExceeded := true
        warnings := self.warnings ++ [self.source.lineAt node.span.start] }
    return false
  else
    set { self with
      nesting := self.nesting + 1
      deepest := max self.deepest (self.nesting + 1) }
    return true

/-- Leaves a level of the tree. -/
def ascend : Traverse Unit :=
  modify fun self => { self with nesting := self.nesting - 1 }

end Traversal

/-- Visits nodes and infers the types of expressions. -/
structure Traverser where
  visit : Node → Traverse Unit
  infer : Node → Traverse (Option QualType)

namespace Traversal

variable (below : Traverser)

/-! ## Written types -/

def lowerSpecifier : Specifier → Traverse QualType
  | .absent => return .builtin "void"
  | .keywords words quals => do
      let scope ← here
      let ty : QualType := match Builtin.canonical? words with
        | some spelling => .builtin spelling
        | none => scope.resolve (" ".intercalate words)
      return ty.withQuals quals
  | .name text => do return (← here).resolve text
  | .placeholder text => return .named text
  | .definition node name => do
      below.visit node
      return .named (name.getD "(anonymous)")
  | .verbatim text => return .named text

mutual

def applyDeclarator : Declarator → QualType → Option Node → Traverse Declared
  | .anonymous, ty, params => return { name := none, ty := ty, params := params }
  | .named node, ty, params => return { name := some node, ty := ty, params := params }
  | .pointer quals inner, ty, _ => applyDeclarator inner (ty.pointerTo.withQuals quals) none
  | .reference rvalue inner, ty, _ =>
      applyDeclarator inner (if rvalue then ty.rvalueRefTo else ty.lvalueRefTo) none
  | .array bound inner, ty, _ => applyDeclarator inner (ty.arrayOf bound) none
  | .function params inner, ty, _ => applyDeclarator inner ty.functionReturning params
  | .trailing params result inner, ty, _ => do
      if ty.isAuto then
        let written ← lowerWritten result
        applyDeclarator inner written.ty.functionReturning params
      else applyDeclarator inner ty.functionReturning params
  | .conversion name target, _, _ => do
      let written ← lowerWritten target
      return { written with name := some name }

def lowerWritten : WrittenType → Traverse Declared
  | .mk specifier quals declarator => do
      let base ← lowerSpecifier below specifier
      applyDeclarator declarator (base.withQuals quals) none

end

def baseType (owner : Node) : Traverse QualType := do
  let source := (← here).source
  let base ← lowerSpecifier below (source.specifierOf owner)
  return base.withQuals (source.qualifiersOf owner)

def applyNode (declarator : Option Node) (base : QualType) : Traverse Declared := do
  let source := (← here).source
  applyDeclarator below ((declarator.map source.declarator).getD .anonymous) base none

def lowerDeclaration (owner : Node) : Traverse Declared := do
  let base ← baseType below owner
  applyNode below (owner.field? .declarator) base

def lowerDescriptor (node : Node) : Traverse QualType := do
  let source := (← here).source
  return (← lowerWritten below (source.typeDescriptor node)).ty

def castDestination (written : Node) : Traverse (Option QualType) := do
  match written.kind with
  | .typeDescriptor => return some (← lowerDescriptor below written)
  | .identifier | .typeIdentifier =>
      let scope ← here
      return some (scope.resolve (scope.source.text written))
  | _ => return none

def templateArgument (node : Node) : Traverse (Option QualType) := do
  match node.kind with
  | .typeDescriptor => return some (← lowerDescriptor below node)
  | .identifier =>
      let scope ← here
      let name := scope.source.text node
      return if scope.isTypeName name then some (scope.resolve name) else none
  | _ => return none

def parameterType (node : Node) : Traverse QualType := do
  return (← lowerDeclaration below node).ty.decay

def parameterTypes (list : Node) : Traverse (List (Option QualType)) := do
  let types ← (list.named.filter (·.kind.isParameter)).mapM (parameterType below)
  return (types.filter (!·.isVoid)).map some

end Traversal

end WidthCheck.Lowering
