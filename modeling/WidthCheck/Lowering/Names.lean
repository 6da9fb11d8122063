import WidthCheck.Lowering.State
import WidthCheck.Text.Find

/-!
# Names of declared entities
-/

namespace WidthCheck

namespace Source

/-- The name under which an entity is shown and the node that its location points at. Qualifiers
are dropped; a conversion operator is shown without its parameters. -/
def entityName (src : Source) (node : Node) : String × Node :=
  let inner := node.innermostName
  match inner.kind with
  | .operatorCast =>
      let signature := (src.text inner).toList.takeWhile (· ≠ '(')
      (String.ofList (Text.collapse signature), inner)
  | .templateFunction => (src.collapsed inner, (inner.field? .name).getD inner)
  | _ => (src.collapsed inner, inner)

/-- A name without qualifiers and template arguments. -/
def simpleName (src : Source) (node : Node) : String :=
  let inner := node.innermostName
  match inner.kind with
  | .templateFunction | .templateType => ((inner.field? .name).map src.text).getD ""
  | _ => src.collapsed inner

/-- Whether an explicit instantiation is marked `extern`, in its own text or just before it. -/
def isExternal (src : Source) (node : Node) : Bool :=
  let word := "extern".toList
  word.isPrefixOf (Text.trimLeft (src.text node).toList) ||
    match node.label.before with
    | some span => word.isSuffixOf (Text.trimRight (src.slice span).toList)
    | none => false

end Source

namespace Lowering

/-- What kind of function a name declares: the name decides for destructors and conversions, the
scope that is written or entered for constructors and methods. -/
def functionKind (scope : Scope) (nameNode : Node) : Lowering ContextKind := do
  let inner := nameNode.innermostName
  match inner.kind with
  | .destructorName => return .destructor
  | .operatorCast => return .conversion
  | _ =>
    let simple := scope.source.simpleName inner
    let qualifier :=
      if nameNode.kind = .qualifiedIdentifier then
        (nameNode.field? .scope).map scope.source.simpleName
      else none
    let inRecord := (← currentKind scope) == .record
    let isConstructor := match qualifier with
      | some q => q == simple
      | none => inRecord && scope.records.head? == some simple
    let known := (← get).knownRecords
    let namesRecord := match qualifier with
      | some q => known.contains q
      | none => false
    return if isConstructor then .constructor
      else if inRecord || namesRecord then .method
      else .function

end Lowering

end WidthCheck
