import WidthCheck.Lowering.State

/-!
# Deducing template arguments

A use of a function template binds its type parameters from the written arguments, then from the
arguments of the call, then from the defaults.
-/

namespace WidthCheck.Lowering

/-- Binds type parameters to the written arguments at their places. Fails at a type parameter whose
argument is not a type, or depends on a template parameter. -/
def bindExplicit : List TemplateParam → List (Option QualType) → Bindings → Option Bindings
  | param :: params, arg :: args, bound =>
      if param.isType then
        match arg with
        | some ty =>
            if ty.isDependent then none else bindExplicit params args ((param.name, ty) :: bound)
        | none => none
      else bindExplicit params args bound
  | _, _, bound => some bound

/-- The template parameter that a function parameter of this type is deduced from: the type is that
parameter or a reference to it. -/
def deducedParam? (pattern : QualType) : Option String :=
  match pattern.referee with
  | .base .templateParam name _ => some name
  | _ => none

/-- Binds the type parameters that are not bound yet from the arguments of a call, the first known
argument deciding. An argument that depends on a template parameter is not known. -/
def bindCall : List QualType → List (Option QualType) → Bindings → Bindings
  | pattern :: patterns, arg :: args, bound =>
      match deducedParam? pattern, arg with
      | some name, some ty =>
          if (bound.lookup name).isSome || ty.isDependent then bindCall patterns args bound
          else bindCall patterns args ((name, ty.referee.unqualified) :: bound)
      | _, _ => bindCall patterns args bound
  | _, _, bound => bound

/-- The argument of a type parameter: what it is bound to, or its default. -/
def chosenArgument (bound : Bindings) (param : TemplateParam) : Option QualType :=
  (bound.lookup param.name).or param.default

/-- The arguments of a template for a use, one for each type parameter, if all can be found. -/
def deduce (template : FunctionTemplate) (use : TemplateUse) : Option (List QualType) :=
  match bindExplicit template.params use.explicit [] with
  | none => none
  | some bound =>
      (template.params.filter (·.isType)).mapM
        (chosenArgument (bindCall template.paramTypes use.callArgs bound))

end WidthCheck.Lowering
