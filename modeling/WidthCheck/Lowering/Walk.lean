import WidthCheck.CType.Literal
import WidthCheck.Lowering.Names
import WidthCheck.Lowering.Types

/-!
# Walking a parse tree

The walk visits statements and declarations and infers the types of simple expressions. It goes
down at most a fixed number of levels. A `Walker` can do both for nodes up to some depth; the walker
for one more level treats a node and leaves what is below it to the walker it is built on.
-/

namespace WidthCheck.Lowering

/-- Visits nodes and infers the types of expressions, up to some depth of nesting. -/
structure Walker where
  visit : Scope → Node → Lowering Unit
  infer : Scope → Node → Lowering (Option QualType)

/-- The walker that goes down no level: it notes that the code is nested too deep. -/
def Walker.refuse : Walker where
  visit := noteTooDeep
  infer scope node := do
    noteTooDeep scope node
    return none

section

variable (below : Walker)

def visitAll (scope : Scope) (nodes : List Node) : Lowering Unit :=
  nodes.forM (below.visit scope)

/-- Visits a node if there is one. -/
def visitField (scope : Scope) (node : Option Node) : Lowering Unit :=
  match node with
  | some n => below.visit scope n
  | none => return ()

/-! ## Namespaces, records, enumerations and aliases -/

def visitNamespace (scope : Scope) (node : Node) : Lowering Unit := do
  let name := ((node.field? .name).map scope.source.text).getD ""
  let inner ← enterContext scope .namespaceBody name .undeclared
  match node.field? .body with
  | some body => visitAll below inner body.named
  | none => return ()

/-- Visits a record that has a body. -/
def visitRecord (scope : Scope) (node : Node) : Lowering Unit := do
  match node.field? .body with
  | none => return ()
  | some body =>
    let name := ((node.field? .name).map scope.source.simpleName).getD ""
    if name ≠ "" then addRecord name
    let inner ← enterContext scope .record name .undeclared
    withFrame (visitAll below { inner with records := name :: scope.records } body.named)

/-- Records an enumeration and visits the values of its enumerators. -/
def visitEnum (scope : Scope) (node : Node) : Lowering Unit := do
  match node.field? .name with
  | some name =>
      addEnum (scope.source.collapsed name)
        (node.children.any fun c => c.kind == .classKeyword || c.kind == .structKeyword)
  | none => pure ()
  match node.field? .body with
  | some body => body.named.forM fun enumerator => visitField below scope (enumerator.field? .value)
  | none => return ()

/-- Records the alias that one declarator of a `typedef` declares. -/
def visitTypedefDeclarator (scope : Scope) (base : QualType) (declarator : Node) :
    Lowering Unit := do
  let declared ← applyNode below.visit scope (some declarator) base
  match declared.name with
  | some name => addAlias (scope.source.text name) declared.ty
  | none => return ()

def visitTypedef (scope : Scope) (node : Node) : Lowering Unit := do
  let base ← baseType below.visit scope node
  (node.fieldAll .declarator).forM (visitTypedefDeclarator below scope base)

def visitAlias (scope : Scope) (node : Node) : Lowering Unit := do
  match node.field? .name, node.field? .type with
  | some name, some type =>
      addAlias (scope.source.text name) (← lowerDescriptor below.visit scope type)
  | _, _ => return ()

/-! ## Functions and their parameters -/

/-- Declares a parameter and returns its type. A parameter that is just `void` is none. -/
def visitParameter (scope : Scope) (kind : ValueKind) (param : Node) :
    Lowering (Option QualType) := do
  if !param.kind.isParameter then return none
  let declared ← lowerDeclaration below.visit scope param
  let ty := declared.ty.decay
  if declared.name.isNone && ty.isVoid then return none
  match declared.name with
  | some name => declare scope (scope.source.text name) kind ty (scope.source.location name)
  | none => declare scope "" kind ty (scope.source.location param)
  visitField below scope (param.field? .defaultValue)
  return some ty

/-- Declares the parameters of a list and returns their types. -/
def visitParameters (scope : Scope) (kind : ValueKind) (list : Node) :
    Lowering (List QualType) := do
  return (← list.named.mapM (visitParameter below scope kind)).filterMap id

/-- Declares the parameters of a list, if there is one. -/
def visitParameterList (scope : Scope) (kind : ValueKind) (list : Option Node) :
    Lowering (List QualType) :=
  match list with
  | some list => visitParameters below scope kind list
  | none => return []

/-- Whether a child of a function is walked as its body. -/
def isFunctionBody (node : Node) : Bool :=
  match node.kind with
  | .compoundStatement | .fieldInitializerList | .tryStatement => true
  | _ => false

/-- The name of a function, with the printed arguments of the instantiation it is for. -/
def specializedName (written : String) : Option String → String
  | some args => written ++ "<" ++ args ++ ">"
  | none => written

/-- Opens the context of a function and records the function. What was waiting for it is taken; the
parameters of its template are returned with the scope inside. -/
def openFunction (scope : Scope) (nameNode : Node) (returnType : QualType) :
    Lowering (Scope × Option (List TemplateParam)) := do
  let template ← takePendingTemplate
  let specialization ← takeSpecialization
  let args ← takeInstantiationArgs
  let (written, locationNode) := scope.source.entityName nameNode
  let name := specializedName written args
  let kind ← functionKind scope nameNode
  let inner ← enterContext scope kind name specialization
  addEntity (.function {
    name, kind, returnType
    location := scope.source.location locationNode
    context := inner.context })
  return (inner, template)

/-- Records a function of `scope` that `owner` writes as a template, if it has template
parameters. -/
def registerFunction (scope : Scope) (owner nameNode : Node) (paramTypes : List QualType) :
    Option (List TemplateParam) → Lowering Unit
  | some params =>
      registerTemplate {
        name := scope.source.simpleName nameNode
        params, paramTypes
        node := owner
        context := scope.context
        records := scope.records }
  | none => return ()

/-- Declares a function that `owner` writes: opens its context, declares its parameters, records it
if it is a template, and visits its body. A function without a name is left out. -/
def visitFunction (scope : Scope) (owner : Node) (declared : Declared) (returnType : QualType) :
    Lowering Unit := do
  match declared.name with
  | none => return ()
  | some nameNode =>
    let (inner, template) ← openFunction scope nameNode returnType
    withFrame do
      let paramTypes ← visitParameterList below inner .parameter declared.params
      registerFunction scope owner nameNode paramTypes template
      if !scope.skipBodies then
        visitAll below inner (owner.named.filter isFunctionBody)

def visitFunctionDefinition (scope : Scope) (node : Node) : Lowering Unit := do
  let declared ← lowerDeclaration below.visit scope node
  match declared.ty with
  | .layer .function returnType _ => visitFunction below scope node declared returnType
  | _ => visitAll below scope node.named

/-! ## Declarations -/

/-- The type that a placeholder is deduced to from an initializer: the initializer's type without
reference and qualifiers, with the qualifiers of the placeholder. -/
def deduceAuto (scope : Scope) (placeholder : QualType) (value : Option Node) :
    Lowering QualType := do
  match value with
  | none => return placeholder
  | some node =>
    match ← below.infer scope node with
    | some ty => return ty.referee.unqualified.withQuals placeholder.quals
    | none => return placeholder

/-- The declarator that declares the name and the initializer, for one declarator of a
declaration. -/
def splitInitializer (owner declarator : Node) : Option Node × Option Node :=
  if declarator.kind = .initDeclarator then
    (declarator.field? .declarator, declarator.field? .value)
  else (some declarator, (owner.field? .value).or (owner.field? .defaultValue))

/-- Declares what a declarator of `owner` has turned out to declare: a function, or a value of this
kind if it has a name. -/
def visitDeclared (scope : Scope) (owner : Node) (kind : ValueKind) (declared : Declared) :
    Lowering Unit :=
  match declared.ty, declared.name with
  | .layer .function returnType _, _ => visitFunction below scope owner declared returnType
  | ty, some nameNode =>
      let (name, locationNode) := scope.source.entityName nameNode
      declare scope name kind ty (scope.source.location locationNode)
  | _, none => return ()

/-- The base type of one declarator: a placeholder is deduced from the initializer. -/
def declaratorBase (scope : Scope) (base : QualType) (value : Option Node) : Lowering QualType :=
  if base.isAuto then deduceAuto below scope base value else return base

/-- Declares what one declarator of a declaration declares, and visits its initializer. -/
def visitDeclarator (scope : Scope) (owner : Node) (kind : ValueKind) (base : QualType)
    (declarator : Node) : Lowering Unit := do
  let (target, value) := splitInitializer owner declarator
  let base ← declaratorBase below scope base value
  let declared ← applyNode below.visit scope target base
  visitDeclared below scope owner kind declared
  visitField below scope value

/-- Whether a declaration is marked `static`. -/
def isStatic (src : Source) (node : Node) : Bool :=
  node.children.any fun c => c.kind == .storageClassSpecifier && src.text c == "static"

def visitDeclaration (scope : Scope) (node : Node) : Lowering Unit := do
  let base ← baseType below.visit scope node
  let inRecord := (← currentKind scope) == .record
  let kind : ValueKind := if inRecord && !isStatic scope.source node then .field else .var
  (node.fieldAll .declarator).forM (visitDeclarator below scope node kind base)

/-! ## Statements and expressions with declarations of their own -/

def visitRangeFor (scope : Scope) (node : Node) : Lowering Unit :=
  withFrame do
    visitField below scope (node.field? .initializer)
    let declared ← lowerDeclaration below.visit scope node
    match declared.name with
    | some name =>
        declare scope (scope.source.text name) .var declared.ty (scope.source.location name)
    | none => pure ()
    visitField below scope (node.field? .right)
    visitField below scope (node.field? .body)

def visitCatch (scope : Scope) (node : Node) : Lowering Unit :=
  withFrame do
    let _ ← visitParameterList below scope .var (node.field? .parameters)
    visitField below scope (node.field? .body)

/-- Records the call operator of a lambda if its return type is written. -/
def recordCallOperator (scope : Scope) (lambda declarator : Node) : Lowering Unit := do
  match declarator.ofKind? .trailingReturnType with
  | some result =>
      let written ← lowerWritten below.visit scope (scope.source.trailingType result)
      addEntity (.function {
        name := "operator()"
        kind := .method
        returnType := written.ty
        location := scope.source.location lambda
        context := scope.context })
  | none => return ()

/-- Visits the declarator of a lambda: its written return type and its parameters. -/
def visitLambdaDeclarator (scope : Scope) (lambda declarator : Node) : Lowering Unit := do
  recordCallOperator below scope lambda declarator
  let _ ← visitParameterList below scope .parameter (declarator.field? .parameters)

def visitLambda (scope : Scope) (node : Node) : Lowering Unit := do
  visitField below scope (node.field? .captures)
  let inner ← enterContext scope .method "operator()" .undeclared
  withFrame do
    match node.field? .declarator with
    | some declarator => visitLambdaDeclarator below inner node declarator
    | none => pure ()
    visitField below inner (node.field? .body)

/-! ## Calls -/

/-- Records a `static_cast` with the first of its template arguments as destination. -/
def recordCast (scope : Scope) (call : Node) (args : Option Node) : Lowering Unit := do
  match args.bind (·.named.head?) with
  | none => return ()
  | some written =>
    match ← castDestination below.visit scope written with
    | none => return ()
    | some destination =>
      addEntity (.cast {
        destination
        typeLocation := scope.source.location written
        location := scope.source.location call
        context := scope.context })

/-- The types of the arguments of a call, as far as they can be inferred. -/
def argumentTypes (scope : Scope) (args : Option Node) : Lowering (List (Option QualType)) :=
  match args with
  | some list => list.named.mapM (below.infer scope)
  | none => return []

/-- The template arguments that are written after a name. -/
def writtenArguments (scope : Scope) (callee : Node) : Lowering (List (Option QualType)) :=
  match callee.field? .arguments with
  | some list => list.named.mapM (templateArgument below.visit scope)
  | none => return []

/-- Records a call as a use of a function template, if one of that name is known. -/
def recordUse (scope : Scope) (name : String) (explicit : List (Option QualType))
    (args : Option Node) : Lowering Unit := do
  if (← get).templates.any (·.name == name) then
    let callArgs ← argumentTypes below scope args
    addUse { name, explicit, callArgs, kind := .implicitInstantiation, depth := scope.depth }

/-- Records what a call to this callee stands for. -/
def recordCall (scope : Scope) (node callee : Node) : Lowering Unit := do
  match callee.kind with
  | .templateFunction =>
      let name := ((callee.field? .name).map scope.source.text).getD ""
      if name = "static_cast" then recordCast below scope node (callee.field? .arguments)
      else
        let explicit ← writtenArguments below scope callee
        recordUse below scope name explicit (node.field? .arguments)
  | .identifier => recordUse below scope (scope.source.text callee) [] (node.field? .arguments)
  | _ => return ()

def visitCall (scope : Scope) (node : Node) : Lowering Unit := do
  match node.field? .function with
  | some function => recordCall below scope node function.innermostName
  | none => pure ()
  visitAll below scope node.named

/-! ## Templates -/

/-- Reads a parameter of a template. A type parameter without a name is left out. -/
def templateParam (scope : Scope) (param : Node) : Lowering (Option TemplateParam) := do
  match param.kind with
  | .typeParameterDeclaration | .variadicTypeParameterDeclaration =>
      return (param.named.find? (·.kind == .typeIdentifier)).map fun name =>
        { name := scope.source.text name, isType := true, default := none }
  | .optionalTypeParameterDeclaration =>
      match param.field? .name with
      | none => return none
      | some name =>
        let default ← match param.field? .defaultType with
          | some node =>
              let ty ← lowerSpecifier below.visit scope (scope.source.specifier node)
              pure (some ty)
          | none => pure none
        return some { name := scope.source.text name, isType := true, default }
  | _ => return some .ofValue

/-- Whether a node inside a template may declare a function. -/
def mayDeclareFunction (node : Node) : Bool :=
  match node.kind with
  | .functionDefinition | .declaration | .fieldDeclaration => true
  | _ => false

/-- What a template declaration declares, its parameters and constraints left out. -/
def templateBody (node : Node) : List Node :=
  node.named.filter fun c => !(c.kind == .templateParameterList || c.kind == .requiresClause)

/-- Visits an explicit specialization. -/
def visitSpecialization (scope : Scope) (node : Node) : Lowering Unit := do
  let saved := (← get).specialization
  modify fun s => { s with specialization := .explicitSpecialization }
  visitAll below scope (templateBody node)
  modify fun s => { s with specialization := saved }

/-- Visits a template with these parameters. -/
def visitTemplatePattern (scope : Scope) (node : Node) (paramNodes : List Node) :
    Lowering Unit := do
  let params := (← paramNodes.mapM (templateParam below scope)).filterMap id
  let names := (params.filter (·.isType)).map (·.name)
  let inner := { scope with typeParams := names :: scope.typeParams }
  (paramNodes.filter (·.kind.isParameter)).forM fun param => do
    let _ ← visitParameter below inner .templateParameter param
  let body := templateBody node
  if body.any mayDeclareFunction then
    modify fun s => { s with pendingTemplate := some params }
  visitAll below inner body
  modify fun s => { s with pendingTemplate := none }

/-- Visits a template declaration. Without parameters it is an explicit specialization. -/
def visitTemplate (scope : Scope) (node : Node) : Lowering Unit :=
  match ((node.field? .parameters).map Node.named).getD [] with
  | [] => visitSpecialization below scope node
  | paramNodes => visitTemplatePattern below scope node paramNodes

/-- The template arguments that an explicit instantiation writes. -/
def instantiationArguments (scope : Scope) (callee : Node) : Lowering (List (Option QualType)) :=
  if callee.kind = .templateFunction then writtenArguments below scope callee else return []

/-- The types of the parameters that an explicit instantiation writes. -/
def instantiationTypes (scope : Scope) (params : Option Node) :
    Lowering (List (Option QualType)) :=
  match params with
  | some list => parameterTypes below.visit scope list
  | none => return []

/-- Records an explicit instantiation as a use of the template it names. -/
def visitInstantiation (scope : Scope) (node : Node) : Lowering Unit := do
  let declared ← lowerDeclaration below.visit scope node
  match declared.name with
  | none => return ()
  | some nameNode =>
    let callee := nameNode.innermostName
    let explicit ← instantiationArguments below scope callee
    let callArgs ← instantiationTypes below scope declared.params
    addUse {
      name := scope.source.simpleName callee
      explicit, callArgs
      kind :=
        if scope.source.isExternal node then .explicitInstantiationDeclaration
        else .explicitInstantiationDefinition
      depth := scope.depth }

/-! ## One level of the walk -/

/-- Visits a node, leaving what is below it to the walker `below`. -/
def visitNode (scope : Scope) (node : Node) : Lowering Unit :=
  match node.kind with
  | .namespaceDefinition => visitNamespace below scope node
  | .classSpecifier | .structSpecifier | .unionSpecifier => visitRecord below scope node
  | .enumSpecifier => visitEnum below scope node
  | .typeDefinition => visitTypedef below scope node
  | .aliasDeclaration => visitAlias below scope node
  | .templateDeclaration => visitTemplate below scope node
  | .templateInstantiation => visitInstantiation below scope node
  | .functionDefinition => visitFunctionDefinition below scope node
  | .declaration | .fieldDeclaration => visitDeclaration below scope node
  | .forRangeLoop => visitRangeFor below scope node
  | .catchClause => visitCatch below scope node
  | .lambdaExpression => visitLambda below scope node
  | .callExpression => visitCall below scope node
  | .compoundStatement => withFrame (visitAll below scope node.named)
  | _ => visitAll below scope node.named

/-- The type of a call, known only for a `static_cast`. -/
def inferCall (scope : Scope) (node : Node) : Lowering (Option QualType) := do
  match node.field? .function with
  | none => return none
  | some callee =>
    match callee.kind, callee.field? .name, callee.field? .arguments with
    | .templateFunction, some name, some args =>
        if scope.source.text name = "static_cast" then
          match args.named.head? with
          | some written => castDestination below.visit scope written
          | none => return none
        else return none
    | _, _, _ => return none

/-- The type of a unary expression. -/
def inferUnary (scope : Scope) (node : Node) : Lowering (Option QualType) := do
  match node.field? .argument with
  | none => return none
  | some argument =>
    let operator := ((node.field? .operator).map scope.source.text).getD ""
    if operator = "!" then return some (.builtin "bool")
    else if operator = "-" ∨ operator = "+" ∨ operator = "~" then
      return (← below.infer scope argument).map .promote
    else return none

/-- Infers the type of a simple expression: a literal, a name in scope, a cast. -/
def inferNode (scope : Scope) (node : Node) : Lowering (Option QualType) := do
  match node.kind with
  | .numberLiteral => return Literal.numberType? (scope.source.text node)
  | .charLiteral => return some (Literal.charType (scope.source.text node))
  | .trueLiteral | .falseLiteral => return some (.builtin "bool")
  | .sizeofExpression | .alignofExpression => return some (.builtin "unsigned long")
  | .parenthesizedExpression | .initializerList | .argumentList =>
      match node.named with
      | [only] => below.infer scope only
      | _ => return none
  | .identifier => return (← lookupName (scope.source.text node)).map .referee
  | .unaryExpression => inferUnary below scope node
  | .castExpression =>
      match node.field? .type with
      | some type => return some (← lowerDescriptor below.visit scope type)
      | none => return none
  | .callExpression => inferCall below scope node
  | _ => return none

/-- The walker that goes down one level more. -/
def Walker.next : Walker where
  visit := visitNode below
  infer := inferNode below

end

/-- The walker that goes down this many levels. -/
def walker : Nat → Walker
  | 0 => .refuse
  | levels + 1 => (walker levels).next

/-- The number of levels that are analysed. -/
def nestingLimit : Nat := 256

/-- Visits a node with the full number of levels below it. -/
def visit : Scope → Node → Lowering Unit := (walker nestingLimit).visit

end WidthCheck.Lowering
