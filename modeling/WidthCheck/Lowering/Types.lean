import WidthCheck.CType.Builtin
import WidthCheck.Lowering.State
import WidthCheck.Lowering.WrittenType

/-!
# Lowering written types

A written type becomes a type when its names are resolved and its declarator is applied to its
base. A class or enumeration defined inside a type is walked on the way; `visit` does that.
-/

namespace WidthCheck.Lowering

variable (visit : Scope → Node → Lowering Unit)

/-- What a declarator declares: its name, its type, and the parameters if it is a function's. -/
structure Declared where
  name : Option Node
  ty : QualType
  params : Option Node

/-- The type that a specifier names. -/
def lowerSpecifier (scope : Scope) : Specifier → Lowering QualType
  | .absent => return .builtin "void"
  | .keywords words quals =>
      let ty : QualType := match Builtin.canonical? words with
        | some spelling => .builtin spelling
        | none => scope.resolve (" ".intercalate words)
      return ty.withQuals quals
  | .name text => return scope.resolve text
  | .placeholder text => return .named text
  | .definition node name => do
      visit scope node
      return .named (name.getD "(anonymous)")
  | .verbatim text => return .named text

mutual

/-- Applies a declarator to a base type. `params` are the parameters of the layer just applied, if
that was a function. -/
def applyDeclarator (scope : Scope) :
    Declarator → QualType → Option Node → Lowering Declared
  | .anonymous, ty, params => return { name := none, ty := ty, params := params }
  | .named node, ty, params => return { name := some node, ty := ty, params := params }
  | .pointer quals inner, ty, _ =>
      applyDeclarator scope inner (ty.pointerTo.withQuals quals) none
  | .reference rvalue inner, ty, _ =>
      applyDeclarator scope inner (if rvalue then ty.rvalueRefTo else ty.lvalueRefTo) none
  | .array bound inner, ty, _ => applyDeclarator scope inner (ty.arrayOf bound) none
  | .function params inner, ty, _ => applyDeclarator scope inner ty.functionReturning params
  | .trailing params result inner, ty, _ => do
      if ty.isAuto then
        let written ← lowerWritten scope result
        applyDeclarator scope inner written.ty.functionReturning params
      else applyDeclarator scope inner ty.functionReturning params
  | .conversion name target, _, _ => do
      let written ← lowerWritten scope target
      return { written with name := some name }

/-- What a written type denotes. -/
def lowerWritten (scope : Scope) : WrittenType → Lowering Declared
  | .mk specifier quals declarator => do
      let base ← lowerSpecifier visit scope specifier
      applyDeclarator scope declarator (base.withQuals quals) none

end

/-- The base type of a declaration: what its specifier names, with the qualifiers beside it. -/
def baseType (scope : Scope) (owner : Node) : Lowering QualType := do
  let base ← lowerSpecifier visit scope (scope.source.specifierOf owner)
  return base.withQuals (scope.source.qualifiersOf owner)

/-- Applies the declarator that a node writes, if there is one, to a base type. -/
def applyNode (scope : Scope) (declarator : Option Node) (base : QualType) : Lowering Declared :=
  applyDeclarator visit scope ((declarator.map scope.source.declarator).getD .anonymous) base none

/-- The base type of a declaration with the single declarator below it applied. -/
def lowerDeclaration (scope : Scope) (owner : Node) : Lowering Declared := do
  let base ← baseType visit scope owner
  applyNode visit scope (owner.field? .declarator) base

/-- The type that a type descriptor denotes. -/
def lowerDescriptor (scope : Scope) (node : Node) : Lowering QualType := do
  return (← lowerWritten visit scope (scope.source.typeDescriptor node)).ty

/-- The destination type of a cast, if it is written as a type or as a plain name. -/
def castDestination (scope : Scope) (written : Node) : Lowering (Option QualType) := do
  match written.kind with
  | .typeDescriptor => return some (← lowerDescriptor visit scope written)
  | .identifier | .typeIdentifier => return some (scope.resolve (scope.source.text written))
  | _ => return none

/-- The template arguments of a list: types, and names that are known to be types. -/
def templateArgument (scope : Scope) (node : Node) : Lowering (Option QualType) := do
  match node.kind with
  | .typeDescriptor => return some (← lowerDescriptor visit scope node)
  | .identifier =>
      let name := scope.source.text node
      return if scope.isTypeName name then some (scope.resolve name) else none
  | _ => return none

/-- The type of one parameter of an explicit instantiation. -/
def parameterType (scope : Scope) (node : Node) : Lowering QualType := do
  return (← lowerDeclaration visit scope node).ty.decay

/-- The parameter types of an explicit instantiation. A parameter `void` is none. -/
def parameterTypes (scope : Scope) (list : Node) : Lowering (List (Option QualType)) := do
  let types ← (list.named.filter (·.kind.isParameter)).mapM (parameterType visit scope)
  return (types.filter (!·.isVoid)).map some

end WidthCheck.Lowering
