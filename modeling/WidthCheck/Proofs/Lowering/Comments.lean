import WidthCheck.Proofs.Lowering.InstantiationMirror
import WidthCheck.Rule.NoLong

/-!
# Comments do not matter

A traversal of the one source of a pair is mirrored in both, so both are lowered to one compilation
unit. Sources that differ only in the comments between declarations are such a pair, except where a
text with a comment in it is read as a whole. One such text is the sibling before an explicit
instantiation: it is searched for the word `extern`, and may be a comment.
-/

namespace WidthCheck

theorem SourcePair.finalState_eq (pair : SourcePair) {root : Node} (hroot : pair.Within root) :
    Lowering.finalState pair.left root = Lowering.finalState pair.right root := by
  have hleft : (Lowering.Traversal.ofTree pair.left root).state =
      Lowering.finalState pair.left root :=
    ((Lowering.Origins.ofPair (.refl pair.left)).ofTree_mirrors root trivial).1
  have hright : (Lowering.Traversal.ofTree pair.left root).state =
      Lowering.finalState pair.right root :=
    ((Lowering.Origins.ofPair pair).ofTree_mirrors root hroot).1
  exact hleft.symm.trans hright

open Source

/-- Two sources that differ only inside comments between declarations, with their line feeds at the
same places, are lowered to one compilation unit with one list of findings, provided that no such
comment stands inside a quoted text, and that the two sources mark the same explicit instantiations
`extern`. -/
theorem CompilationUnit.ofTree_eq_of_differ_in_comments {src src' : Source} {root : Node}
    (severity : Severity) (hlines : src.SameLines src')
    (hcomments : DifferOnlyIn root.bodyComments src src')
    (hquoted : ∀ n ∈ root.quoted, ∀ comment ∈ root.bodyComments, n.span.Disjoint comment)
    (hmarks : ∀ n ∈ root.nodes, n.kind = .templateInstantiation →
      src.isExternal n = src'.isExternal n) :
    ofTree src root = ofTree src' root ∧
      (Rule.noLong severity).diagnostics (ofTree src root) =
        (Rule.noLong severity).diagnostics (ofTree src' root) := by
  let pair := SourcePair.ofTree src src' root hlines
    (fun n hn => hcomments.slice_eq hlines.size_eq (hquoted n hn)) hmarks
  have hunit : ofTree src root = ofTree src' root :=
    congrArg Lowering.State.unit (pair.finalState_eq (Node.mem_nodes_self root))
  exact ⟨hunit, by rw [hunit]⟩

/-- The tree of `struct S{/*b*/}; template void f<S>();`, with a comment on a line of its own before
each of the two. -/
def remarkedTree : Node :=
  .mk { kind := .other "translation_unit", span := ⟨0, 46⟩ } (ParseTree.linkSiblings none [
    .mk { kind := .other "comment", span := ⟨0, 3⟩, isExtra := true } [],
    .mk { kind := .structSpecifier, span := ⟨4, 19⟩ } [
      .mk { kind := .typeIdentifier, field := some .name, span := ⟨11, 12⟩ } [],
      .mk { kind := .other "field_declaration_list", field := some .body, span := ⟨12, 19⟩ } [
        .mk { kind := .other "comment", span := ⟨13, 18⟩, isExtra := true } []]],
    .mk { kind := .other "comment", span := ⟨21, 24⟩, isExtra := true } [],
    .mk { kind := .templateInstantiation, span := ⟨25, 46⟩ } [
      .mk { kind := .primitiveType, field := some .type, span := ⟨34, 38⟩ } [],
      .mk { kind := .functionDeclarator, field := some .declarator, span := ⟨39, 45⟩ } [
        .mk { kind := .templateFunction, field := some .declarator, span := ⟨39, 43⟩ } [
          .mk { kind := .identifier, field := some .name, span := ⟨39, 40⟩ } [],
          .mk { kind := .other "template_argument_list", field := some .arguments,
                span := ⟨40, 43⟩ } [
            .mk { kind := .typeDescriptor, span := ⟨41, 42⟩ } [
              .mk { kind := .typeIdentifier, field := some .type, span := ⟨41, 42⟩ } []]]],
        .mk { kind := .other "parameter_list", field := some .parameters,
              span := ⟨43, 45⟩ } []]]])

/-- The text of `remarkedTree` with the comments `//a`, `/*b*/` and `//c`. -/
def remarkedSource : Source :=
  ⟨#[47, 47, 97, 10, 115, 116, 114, 117, 99, 116, 32, 83, 123, 47, 42, 98, 42, 47, 125, 59, 10,
    47, 47, 99, 10, 116, 101, 109, 112, 108, 97, 116, 101, 32, 118, 111, 105, 100, 32, 102, 60,
    83, 62, 40, 41, 59]⟩

/-- The same text with the comments `//x`, `/*y*/` and `//z`. -/
def reworkedSource : Source :=
  ⟨#[47, 47, 120, 10, 115, 116, 114, 117, 99, 116, 32, 83, 123, 47, 42, 121, 42, 47, 125, 59,
    10, 47, 47, 122, 10, 116, 101, 109, 112, 108, 97, 116, 101, 32, 118, 111, 105, 100, 32,
    102, 60, 83, 62, 40, 41, 59]⟩

theorem remarkedTree_reworked :
    remarkedTree.bodyComments = [⟨0, 3⟩, ⟨21, 24⟩, ⟨13, 18⟩] ∧
      CompilationUnit.ofTree remarkedSource remarkedTree =
        CompilationUnit.ofTree reworkedSource remarkedTree := by
  refine ⟨by decide, ?_⟩
  exact (CompilationUnit.ofTree_eq_of_differ_in_comments .error (by decide) (by decide) (by decide)
    (by decide)).1

-- The comment `//extern` marks the explicit instantiation after it, the comment `//extirn` does
-- not.
example :
    let use : Node :=
      .mk { kind := .templateInstantiation, span := ⟨9, 9⟩, before := some ⟨0, 8⟩ } []
    (⟨#[47, 47, 101, 120, 116, 101, 114, 110, 10]⟩ : Source).isExternal use = true ∧
      (⟨#[47, 47, 101, 120, 116, 105, 114, 110, 10]⟩ : Source).isExternal use = false := by
  decide

end WidthCheck
