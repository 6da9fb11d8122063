import WidthCheck.Lowering.Instantiation
import WidthCheck.Lowering.Traversal.Walk

/-!
# Instantiating templates with all state in one record

Lowering the pattern of a template again sets nearly every field that holds for a part of the tree.
They are saved before and put back afterwards.
-/

namespace WidthCheck.Lowering.Traversal

/-- Goes to where a template was found, with its type parameters bound. -/
def enterPattern (template : FunctionTemplate) (args : List QualType) (kind : Specialization)
    (depth : Nat) : Traverse Unit :=
  modify fun self => { self with
    context := template.context
    specialization := kind
    bindings := (template.typeParams.zip args).reverse
    typeParams := []
    records := template.records
    instantiationArgs := some (", ".intercalate (args.map QualType.text))
    depth := depth + 1
    skipBodies := kind = .explicitInstantiationDeclaration }

/-- Puts back what `enterPattern` has set. -/
def leavePattern (saved : Traversal) : Traverse Unit :=
  modify fun self => { self with
    context := saved.context
    specialization := saved.specialization
    bindings := saved.bindings
    typeParams := saved.typeParams
    records := saved.records
    instantiationArgs := saved.instantiationArgs
    depth := saved.depth
    skipBodies := saved.skipBodies }

def lowerPattern (template : FunctionTemplate) (args : List QualType) (kind : Specialization)
    (depth : Nat) : Traverse Unit := do
  let saved ← get
  enterPattern template args kind depth
  pushFrame
  visit template.node
  popFrame
  leavePattern saved

def instantiate (index : Nat) (args : List QualType) (kind : Specialization) (depth : Nat) :
    Traverse Unit := do
  let self ← get
  if !self.instantiated.contains (index, args) then
    set { self with instantiated := (index, args) :: self.instantiated }
    match self.templates[index]? with
    | some template => lowerPattern template args kind depth
    | none => return ()

def tryInstantiate (use : TemplateUse) (index : Nat) : Traverse Unit := do
  match (← get).templates[index]?.bind (deduce · use) with
  | some args => instantiate index args use.kind use.depth
  | none => return ()

def processUse (use : TemplateUse) : Traverse Unit := do
  (candidates (← get).templates use.name).forM (tryInstantiate use)

def processLevels : Nat → Nat → Traverse Unit
  | 0, _ => return ()
  | levels + 1, first => do
      let level := (← get).uses.toList.drop first
      level.forM processUse
      processLevels levels (first + level.length)

def processUses : Traverse Unit := do
  modify fun self => { self with uses := explicitFirst self.uses }
  processLevels instantiationLimit 0

def lowerTree (root : Node) : Traverse Unit := do
  visit root
  processUses

/-- The traversal of a parse tree, when all is done. -/
def ofTree (source : Source) (root : Node) : Traversal := ((lowerTree root).run { source }).2

end WidthCheck.Lowering.Traversal
