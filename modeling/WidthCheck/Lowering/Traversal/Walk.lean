import WidthCheck.Lowering.Traversal

/-!
# Walking with all state in one record

The visitors of a traversal. Each puts back by hand what it has set: the context, the enclosing
record, the block, the type parameters, the specialization, the level of nesting.
-/

namespace WidthCheck.Lowering

namespace Traversal

variable (below : Traverser)

def visitAll (nodes : List Node) : Traverse Unit := nodes.forM below.visit

/-- Visits a node if there is one. -/
def visitField (node : Option Node) : Traverse Unit :=
  match node with
  | some n => below.visit n
  | none => return ()

/-- Visits what stands in a body, if there is one. -/
def visitBody (body : Option Node) : Traverse Unit :=
  match body with
  | some body => visitAll below body.named
  | none => return ()

/-! ## Namespaces, records, enumerations and aliases -/

def visitNamespace (node : Node) : Traverse Unit := do
  let source := (← here).source
  let name := ((node.field? .name).map source.text).getD ""
  let saved ← enterContext .namespaceBody name .undeclared
  visitBody below (node.field? .body)
  setContext saved

def visitRecord (node : Node) : Traverse Unit := do
  match node.field? .body with
  | none => return ()
  | some body =>
    let source := (← here).source
    let name := ((node.field? .name).map source.simpleName).getD ""
    if name ≠ "" then onState fun _ => addRecord name
    let saved ← enterContext .record name .undeclared
    pushRecord name
    pushFrame
    visitAll below body.named
    popFrame
    popRecord
    setContext saved

def visitEnum (node : Node) : Traverse Unit := do
  match node.field? .name with
  | some name =>
      onState fun scope => addEnum (scope.source.collapsed name)
        (node.children.any fun c => c.kind == .classKeyword || c.kind == .structKeyword)
  | none => pure ()
  match node.field? .body with
  | some body => body.named.forM fun enumerator => visitField below (enumerator.field? .value)
  | none => return ()

def visitTypedefDeclarator (base : QualType) (declarator : Node) : Traverse Unit := do
  let declared ← applyNode below (some declarator) base
  match declared.name with
  | some name => onState fun scope => addAlias (scope.source.text name) declared.ty
  | none => return ()

def visitTypedef (node : Node) : Traverse Unit := do
  let base ← baseType below node
  (node.fieldAll .declarator).forM (visitTypedefDeclarator below base)

def visitAlias (node : Node) : Traverse Unit := do
  match node.field? .name, node.field? .type with
  | some name, some type =>
      let ty ← lowerDescriptor below type
      onState fun scope => addAlias (scope.source.text name) ty
  | _, _ => return ()

/-! ## Functions and their parameters -/

def visitParameter (kind : ValueKind) (param : Node) : Traverse (Option QualType) := do
  if !param.kind.isParameter then return none
  let declared ← lowerDeclaration below param
  let ty := declared.ty.decay
  if declared.name.isNone && ty.isVoid then return none
  match declared.name with
  | some name =>
      onState fun scope =>
        declare scope (scope.source.text name) kind ty (scope.source.location name)
  | none => onState fun scope => declare scope "" kind ty (scope.source.location param)
  visitField below (param.field? .defaultValue)
  return some ty

def visitParameters (kind : ValueKind) (list : Node) : Traverse (List QualType) := do
  return (← list.named.mapM (visitParameter below kind)).filterMap id

def visitParameterList (kind : ValueKind) (list : Option Node) : Traverse (List QualType) :=
  match list with
  | some list => visitParameters below kind list
  | none => return []

/-- Records a function that is declared in the context `parent`. -/
def registerFunction (parent : Nat) (owner nameNode : Node) (paramTypes : List QualType) :
    Option (List TemplateParam) → Traverse Unit
  | some params =>
      onState fun scope => registerTemplate {
        name := scope.source.simpleName nameNode
        params, paramTypes
        node := owner
        context := parent
        records := scope.records }
  | none => return ()

/-- Opens the context of a function and records the function. Returns the context that was left, and
the template parameters that were waiting. -/
def openFunction (nameNode : Node) (returnType : QualType) :
    Traverse (Nat × Option (List TemplateParam)) := do
  let template ← onState fun _ => takePendingTemplate
  let specialization ← onState fun _ => takeSpecialization
  let args ← onState fun _ => takeInstantiationArgs
  let source := (← here).source
  let (written, locationNode) := source.entityName nameNode
  let name := specializedName written args
  let kind ← onState (functionKind · nameNode)
  let parent ← enterContext kind name specialization
  onState fun scope => addEntity (.function {
    name, kind, returnType
    location := scope.source.location locationNode
    context := scope.context })
  return (parent, template)

/-- Visits the parameters and the body of a function that has been opened in the context
`parent`. -/
def visitFunctionParts (parent : Nat) (owner nameNode : Node) (params : Option Node)
    (template : Option (List TemplateParam)) : Traverse Unit := do
  let paramTypes ← visitParameterList below .parameter params
  registerFunction parent owner nameNode paramTypes template
  if !(← here).skipBodies then
    visitAll below (owner.named.filter isFunctionBody)

def visitFunction (owner : Node) (declared : Declared) (returnType : QualType) :
    Traverse Unit := do
  match declared.name with
  | none => return ()
  | some nameNode =>
    let (parent, template) ← openFunction nameNode returnType
    pushFrame
    visitFunctionParts below parent owner nameNode declared.params template
    popFrame
    setContext parent

def visitFunctionDefinition (node : Node) : Traverse Unit := do
  let declared ← lowerDeclaration below node
  match declared.ty with
  | .layer .function returnType _ => visitFunction below node declared returnType
  | _ => visitAll below node.named

/-! ## Declarations -/

def deduceAuto (placeholder : QualType) (value : Option Node) : Traverse QualType := do
  match value with
  | none => return placeholder
  | some node =>
    match ← below.infer node with
    | some ty => return ty.referee.unqualified.withQuals placeholder.quals
    | none => return placeholder

def declaratorBase (base : QualType) (value : Option Node) : Traverse QualType :=
  if base.isAuto then deduceAuto below base value else return base

def visitDeclared (owner : Node) (kind : ValueKind) (declared : Declared) : Traverse Unit :=
  match declared.ty, declared.name with
  | .layer .function returnType _, _ => visitFunction below owner declared returnType
  | ty, some nameNode =>
      onState fun scope =>
        let (name, locationNode) := scope.source.entityName nameNode
        declare scope name kind ty (scope.source.location locationNode)
  | _, none => return ()

def visitDeclarator (owner : Node) (kind : ValueKind) (base : QualType) (declarator : Node) :
    Traverse Unit := do
  let (target, value) := splitInitializer owner declarator
  let base ← declaratorBase below base value
  let declared ← applyNode below target base
  visitDeclared below owner kind declared
  visitField below value

def visitDeclaration (node : Node) : Traverse Unit := do
  let base ← baseType below node
  let source := (← here).source
  let inRecord := (← onState currentKind) == .record
  let kind : ValueKind := if inRecord && !isStatic source node then .field else .var
  (node.fieldAll .declarator).forM (visitDeclarator below node kind base)

/-! ## Statements and expressions with declarations of their own -/

def visitRangeForParts (node : Node) : Traverse Unit := do
  visitField below (node.field? .initializer)
  let declared ← lowerDeclaration below node
  match declared.name with
  | some name =>
      onState fun scope =>
        declare scope (scope.source.text name) .var declared.ty (scope.source.location name)
  | none => pure ()
  visitField below (node.field? .right)
  visitField below (node.field? .body)

def visitRangeFor (node : Node) : Traverse Unit := do
  pushFrame
  visitRangeForParts below node
  popFrame

def visitCatchParts (node : Node) : Traverse Unit := do
  let _ ← visitParameterList below .var (node.field? .parameters)
  visitField below (node.field? .body)

def visitCatch (node : Node) : Traverse Unit := do
  pushFrame
  visitCatchParts below node
  popFrame

def recordCallOperator (lambda declarator : Node) : Traverse Unit := do
  match declarator.ofKind? .trailingReturnType with
  | some result =>
      let source := (← here).source
      let written ← lowerWritten below (source.trailingType result)
      onState fun scope => addEntity (.function {
        name := "operator()"
        kind := .method
        returnType := written.ty
        location := scope.source.location lambda
        context := scope.context })
  | none => return ()

def visitLambdaDeclarator (lambda declarator : Node) : Traverse Unit := do
  recordCallOperator below lambda declarator
  let _ ← visitParameterList below .parameter (declarator.field? .parameters)

def visitLambdaParts (node : Node) : Traverse Unit := do
  match node.field? .declarator with
  | some declarator => visitLambdaDeclarator below node declarator
  | none => pure ()
  visitField below (node.field? .body)

def visitLambda (node : Node) : Traverse Unit := do
  visitField below (node.field? .captures)
  let saved ← enterContext .method "operator()" .undeclared
  pushFrame
  visitLambdaParts below node
  popFrame
  setContext saved

/-! ## Calls -/

def recordCast (call : Node) (args : Option Node) : Traverse Unit := do
  match args.bind (·.named.head?) with
  | none => return ()
  | some written =>
    match ← castDestination below written with
    | none => return ()
    | some destination =>
      onState fun scope => addEntity (.cast {
        destination
        typeLocation := scope.source.location written
        location := scope.source.location call
        context := scope.context })

def argumentTypes (args : Option Node) : Traverse (List (Option QualType)) :=
  match args with
  | some list => list.named.mapM below.infer
  | none => return []

def writtenArguments (callee : Node) : Traverse (List (Option QualType)) :=
  match callee.field? .arguments with
  | some list => list.named.mapM (templateArgument below)
  | none => return []

def recordUse (name : String) (explicit : List (Option QualType)) (args : Option Node) :
    Traverse Unit := do
  if (← get).templates.any (·.name == name) then
    let callArgs ← argumentTypes below args
    onState fun scope =>
      addUse { name, explicit, callArgs, kind := .implicitInstantiation, depth := scope.depth }

def recordCall (node callee : Node) : Traverse Unit := do
  let source := (← here).source
  match callee.kind with
  | .templateFunction =>
      let name := ((callee.field? .name).map source.text).getD ""
      if name = "static_cast" then recordCast below node (callee.field? .arguments)
      else
        let explicit ← writtenArguments below callee
        recordUse below name explicit (node.field? .arguments)
  | .identifier => recordUse below (source.text callee) [] (node.field? .arguments)
  | _ => return ()

def visitCall (node : Node) : Traverse Unit := do
  match node.field? .function with
  | some function => recordCall below node function.innermostName
  | none => pure ()
  visitAll below node.named

/-! ## Templates -/

def templateParam (param : Node) : Traverse (Option TemplateParam) := do
  let source := (← here).source
  match param.kind with
  | .typeParameterDeclaration | .variadicTypeParameterDeclaration =>
      return (param.named.find? (·.kind == .typeIdentifier)).map fun name =>
        { name := source.text name, isType := true, default := none }
  | .optionalTypeParameterDeclaration =>
      match param.field? .name with
      | none => return none
      | some name =>
        let default ← match param.field? .defaultType with
          | some node =>
              let ty ← lowerSpecifier below (source.specifier node)
              pure (some ty)
          | none => pure none
        return some { name := source.text name, isType := true, default }
  | _ => return some .ofValue

def visitSpecialization (node : Node) : Traverse Unit := do
  let saved := (← get).specialization
  setSpecialization .explicitSpecialization
  visitAll below (templateBody node)
  setSpecialization saved

def visitTemplatePattern (node : Node) (paramNodes : List Node) : Traverse Unit := do
  let params := (← paramNodes.mapM (templateParam below)).filterMap id
  pushTypeParams ((params.filter (·.isType)).map (·.name))
  (paramNodes.filter (·.kind.isParameter)).forM fun param => do
    let _ ← visitParameter below .templateParameter param
  let body := templateBody node
  if body.any mayDeclareFunction then setPendingTemplate (some params)
  visitAll below body
  setPendingTemplate none
  popTypeParams

def visitTemplate (node : Node) : Traverse Unit :=
  match ((node.field? .parameters).map Node.named).getD [] with
  | [] => visitSpecialization below node
  | paramNodes => visitTemplatePattern below node paramNodes

def instantiationArguments (callee : Node) : Traverse (List (Option QualType)) :=
  if callee.kind = .templateFunction then writtenArguments below callee else return []

def instantiationTypes (params : Option Node) : Traverse (List (Option QualType)) :=
  match params with
  | some list => parameterTypes below list
  | none => return []

def visitInstantiation (node : Node) : Traverse Unit := do
  let declared ← lowerDeclaration below node
  match declared.name with
  | none => return ()
  | some nameNode =>
    let callee := nameNode.innermostName
    let explicit ← instantiationArguments below callee
    let callArgs ← instantiationTypes below declared.params
    onState fun scope => addUse {
      name := scope.source.simpleName callee
      explicit, callArgs
      kind :=
        if scope.source.isExternal node then .explicitInstantiationDeclaration
        else .explicitInstantiationDefinition
      depth := scope.depth }

/-! ## One level of the walk -/

def visitNode (node : Node) : Traverse Unit :=
  match node.kind with
  | .namespaceDefinition => visitNamespace below node
  | .classSpecifier | .structSpecifier | .unionSpecifier => visitRecord below node
  | .enumSpecifier => visitEnum below node
  | .typeDefinition => visitTypedef below node
  | .aliasDeclaration => visitAlias below node
  | .templateDeclaration => visitTemplate below node
  | .templateInstantiation => visitInstantiation below node
  | .functionDefinition => visitFunctionDefinition below node
  | .declaration | .fieldDeclaration => visitDeclaration below node
  | .forRangeLoop => visitRangeFor below node
  | .catchClause => visitCatch below node
  | .lambdaExpression => visitLambda below node
  | .callExpression => visitCall below node
  | .compoundStatement => do
      pushFrame
      visitAll below node.named
      popFrame
  | _ => visitAll below node.named

def inferCall (node : Node) : Traverse (Option QualType) := do
  let source := (← here).source
  match node.field? .function with
  | none => return none
  | some callee =>
    match callee.field? .name, callee.field? .arguments with
    | some name, some args =>
        if callee.kind = .templateFunction ∧ source.text name = "static_cast" then
          match args.named.head? with
          | some written => castDestination below written
          | none => return none
        else return none
    | _, _ => return none

def inferUnary (node : Node) : Traverse (Option QualType) := do
  let source := (← here).source
  match node.field? .argument with
  | none => return none
  | some argument =>
    let operator := ((node.field? .operator).map source.text).getD ""
    if operator = "!" then return some (.builtin "bool")
    else if operator = "-" ∨ operator = "+" ∨ operator = "~" then
      return (← below.infer argument).map .promote
    else return none

def inferNode (node : Node) : Traverse (Option QualType) := do
  let source := (← here).source
  match node.kind with
  | .numberLiteral => return Literal.numberType? (source.text node)
  | .charLiteral => return some (Literal.charType (source.text node))
  | .trueLiteral | .falseLiteral => return some (.builtin "bool")
  | .sizeofExpression | .alignofExpression => return some (.builtin "unsigned long")
  | .parenthesizedExpression | .initializerList | .argumentList =>
      match node.named with
      | [only] => below.infer only
      | _ => return none
  | .identifier => return (← onState fun _ => lookupName (source.text node)).map .referee
  | .unaryExpression => inferUnary below node
  | .castExpression =>
      match node.field? .type with
      | some type => return some (← lowerDescriptor below type)
      | none => return none
  | .callExpression => inferCall below node
  | _ => return none

end Traversal

/-- The traverser that enters a level before it treats a node, and leaves it afterwards. -/
def Traverser.next (below : Traverser) : Traverser where
  visit node := do
    if ← Traversal.descend node then
      Traversal.visitNode below node
      Traversal.ascend
  infer node := do
    if ← Traversal.descend node then
      let ty ← Traversal.inferNode below node
      Traversal.ascend
      return ty
    else return none

/-- The traverser for this many levels. -/
def traverser : Nat → Traverser
  | 0 => { visit _ := return (), infer _ := return none }
  | levels + 1 => (traverser levels).next

/-- Visits a node. Below the limit of nesting there is one level more, at which `descend` refuses,
so that the last level is never come to. -/
def Traversal.visit : Node → Traverse Unit := (traverser (nestingLimit + 1)).visit

end WidthCheck.Lowering
