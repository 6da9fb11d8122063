import WidthCheck.CType.Print
import WidthCheck.Lowering.Deduction
import WidthCheck.Lowering.Walk

/-!
# Instantiating templates

After the walk, the uses of function templates are worked off. A use instantiates the templates of
its name whose arguments can be deduced, by lowering the pattern again with the arguments bound.
That may record further uses, one level deeper; they are worked off after all uses of their level.
-/

namespace WidthCheck

namespace Lowering

/-- The depth at which uses are no longer instantiated. -/
def instantiationLimit : Nat := 8

/-- The scope in which the pattern of a template is lowered, with its type parameters bound. -/
def patternScope (source : Source) (template : FunctionTemplate) (args : List QualType)
    (kind : Specialization) (depth : Nat) : Scope where
  source
  context := template.context
  records := template.records
  bindings := (template.typeParams.zip args).reverse
  depth := depth + 1
  skipBodies := kind = .explicitInstantiationDeclaration

/-- Lowers the pattern of a template. -/
def lowerPattern (source : Source) (template : FunctionTemplate) (args : List QualType)
    (kind : Specialization) (depth : Nat) : Lowering Unit := do
  let saved ← get
  modify fun s => { s with
    specialization := kind
    instantiationArgs := some (", ".intercalate (args.map QualType.text)) }
  withFrame (visit (patternScope source template args kind depth) template.node)
  modify fun s => { s with
    specialization := saved.specialization, instantiationArgs := saved.instantiationArgs }

/-- Instantiates the template at an index unless that was done before with these arguments. -/
def instantiate (source : Source) (index : Nat) (args : List QualType) (kind : Specialization)
    (depth : Nat) : Lowering Unit := do
  let s ← get
  if !s.instantiated.contains (index, args) then
    set { s with instantiated := (index, args) :: s.instantiated }
    match s.templates[index]? with
    | some template => lowerPattern source template args kind depth
    | none => return ()

/-- Instantiates the template at an index if its arguments can be deduced for a use. -/
def tryInstantiate (source : Source) (use : TemplateUse) (index : Nat) : Lowering Unit := do
  match (← get).templates[index]?.bind (deduce · use) with
  | some args => instantiate source index args use.kind use.depth
  | none => return ()

/-- The indices of the templates of this name. -/
def candidates (templates : List FunctionTemplate) (name : String) : List Nat :=
  (templates.zipIdx.filter (·.1.name == name)).map Prod.snd

/-- Instantiates what a use names. -/
def processUse (source : Source) (use : TemplateUse) : Lowering Unit := do
  (candidates (← get).templates use.name).forM (tryInstantiate source use)

/-- Works off the uses from index `first` on, level by level, for this many levels. -/
def processLevels (source : Source) : Nat → Nat → Lowering Unit
  | 0, _ => return ()
  | levels + 1, first => do
      let level := (← get).uses.toList.drop first
      level.forM (processUse source)
      processLevels source levels (first + level.length)

/-- Puts the explicit instantiations before the implicit ones. -/
def explicitFirst (uses : Array TemplateUse) : Array TemplateUse :=
  uses.filter (·.kind != .implicitInstantiation) ++ uses.filter (·.kind == .implicitInstantiation)

/-- Works off all uses that the walk has recorded. -/
def processUses (source : Source) : Lowering Unit := do
  modify fun s => { s with uses := explicitFirst s.uses }
  processLevels source instantiationLimit 0

/-- Lowers a parse tree and then its template uses. -/
def lowerTree (source : Source) (root : Node) : Lowering Unit := do
  visit { source } root
  processUses source

/-- The state after lowering a parse tree. -/
def finalState (source : Source) (root : Node) : State := ((lowerTree source root).run {}).2

end Lowering

/-- The compilation unit of a parse tree. -/
def CompilationUnit.ofTree (source : Source) (root : Node) : CompilationUnit :=
  (Lowering.finalState source root).unit

/-- The line from which on a parse tree is nested too deep to be analysed, if there is one. -/
def CompilationUnit.tooDeepAt (source : Source) (root : Node) : Option Nat :=
  (Lowering.finalState source root).tooDeepAt

end WidthCheck
