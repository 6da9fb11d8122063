import WidthCheck.CType.Basic
import WidthCheck.ParseTree.Source

/-!
# Written types

A type as it stands in the source: a specifier that names the base, the qualifiers beside it, and
a declarator that puts layers on the base and may name what is declared. Reading a written type
from the parse tree looks no name up; that is left to the lowering of the written type.
-/

namespace WidthCheck

/-- What a declaration names as the base of its types. -/
inductive Specifier where
  /-- No specifier, as before a constructor. -/
  | absent
  /-- Type keywords, and the qualifiers written among them. -/
  | keywords (words : List String) (quals : Quals)
  /-- A plain type name. -/
  | name (text : String)
  /-- The word `auto` or `decltype(auto)`. -/
  | placeholder (text : String)
  /-- A class, struct, union or enumeration, with its name if it has one. -/
  | definition (node : Node) (name : Option String)
  /-- Any other spelling of a type, taken as a name. -/
  | verbatim (text : String)

mutual

/-- A declarator, from the layer next to the base inwards to the declared name. -/
inductive Declarator where
  /-- The end of a declarator that names nothing. -/
  | anonymous
  /-- The end of a declarator: the declared name. -/
  | named (node : Node)
  | pointer (quals : Quals) (inner : Declarator)
  | reference (rvalue : Bool) (inner : Declarator)
  | array (bound : Option String) (inner : Declarator)
  | function (params : Option Node) (inner : Declarator)
  /-- A function with its return type written after the parameters. -/
  | trailing (params : Option Node) (result : WrittenType) (inner : Declarator)
  /-- The end of a declarator: a conversion operator, whose name spells its target type. -/
  | conversion (name : Node) (target : WrittenType)

/-- A specifier, the qualifiers beside it and a declarator. -/
inductive WrittenType where
  | mk (specifier : Specifier) (quals : Quals) (declarator : Declarator)

end

instance : Inhabited Declarator := ⟨.anonymous⟩

namespace Source

open Node

/-- The qualifiers that a row of nodes writes. -/
def qualifiers (src : Source) (nodes : List Node) : Quals :=
  Quals.ofWords ((nodes.filter (·.kind == .typeQualifier)).map src.text)

/-- Reads the specifier that a node writes. -/
def specifier (src : Source) (node : Node) : Specifier :=
  match node.kind with
  | .primitiveType | .sizedTypeSpecifier =>
      let words := (Text.words (src.text node).toList).map String.ofList
      .keywords (words.filter fun w => (Quals.ofWord? w).isNone) (Quals.ofWords words)
  | .typeIdentifier => .name (src.text node)
  | .placeholderTypeSpecifier | .autoKeyword =>
      if "decltype(auto)".toList.isSuffixOf (src.text node).toList then
        .placeholder "decltype(auto)"
      else .placeholder "auto"
  | .classSpecifier | .structSpecifier | .unionSpecifier | .enumSpecifier =>
      .definition node ((node.field? .name).map src.collapsed)
  | _ => .verbatim (src.collapsed node)

/-- The specifier of a declaration. -/
def specifierOf (src : Source) (owner : Node) : Specifier :=
  match owner.field? .type with
  | some node => src.specifier node
  | none => .absent

/-- The qualifiers beside the specifier of a declaration. -/
def qualifiersOf (src : Source) (owner : Node) : Quals := src.qualifiers owner.children

mutual

/-- Reads a declarator. -/
def declarator (src : Source) (node : Node) : Declarator :=
  match node.kind with
  | .initDeclarator => src.declaratorField node
  | .parenthesizedDeclarator | .attributedDeclarator =>
      match _h : node.named.head? with
      | some inner => src.declarator inner
      | none => .anonymous
  | .pointerDeclarator | .abstractPointerDeclarator =>
      .pointer (src.qualifiersOf node) (src.declaratorField node)
  | .referenceDeclarator | .abstractReferenceDeclarator =>
      .reference (node.ofKind? .doubleAmpersand).isSome
        (match _h : node.named.getLast? with
          | some inner => src.declarator inner
          | none => .anonymous)
  | .arrayDeclarator | .abstractArrayDeclarator =>
      .array ((node.field? .size).map src.collapsed) (src.declaratorField node)
  | .functionDeclarator | .abstractFunctionDeclarator =>
      match _h : node.ofKind? .trailingReturnType with
      | some result =>
          .trailing (node.field? .parameters) (src.trailingType result) (src.declaratorField node)
      | none => .function (node.field? .parameters) (src.declaratorField node)
  | .operatorCast => .conversion node (src.typeDescriptor node)
  | .qualifiedIdentifier =>
      if node.innermostName.kind = .operatorCast then
        .conversion node (src.typeDescriptor node.innermostName)
      else .named node
  | _ => .named node
termination_by (sizeOf node, 2)
decreasing_by
  all_goals first
    | have := sizeOf_lt_of_mem_children (mem_children_of_head?_named ‹_›); omega
    | have := sizeOf_lt_of_mem_children (mem_children_of_getLast?_named ‹_›); omega
    | have := sizeOf_lt_of_mem_children (mem_children_of_ofKind? ‹_›); omega
    | have := sizeOf_innermostName_le node; omega

/-- Reads the declarator below a node, if there is one. -/
def declaratorField (src : Source) (node : Node) : Declarator :=
  match _h : node.field? .declarator with
  | some inner => src.declarator inner
  | none => .anonymous
termination_by (sizeOf node, 0)
decreasing_by
  have := sizeOf_lt_of_mem_children (mem_children_of_field? ‹_›)
  omega

/-- Reads a type that is written as a specifier and a declarator below one node. -/
def typeDescriptor (src : Source) (node : Node) : WrittenType :=
  .mk (src.specifierOf node) (src.qualifiersOf node) (src.declaratorField node)
termination_by (sizeOf node, 1)

/-- Reads the type after the arrow of a function. It is a type descriptor, or a specifier,
qualifiers and a declarator side by side. -/
def trailingType (src : Source) (node : Node) : WrittenType :=
  match _h : node.named.find? (·.kind == .typeDescriptor) with
  | some descriptor => src.typeDescriptor descriptor
  | none =>
      .mk
        (match node.named.find? fun c => !(c.kind == .typeQualifier || c.kind.isAbstract) with
          | some c => src.specifier c
          | none => .absent)
        (src.qualifiers node.named)
        (match _h : node.named.reverse.find? (·.kind.isAbstract) with
          | some c => src.declarator c
          | none => .anonymous)
termination_by (sizeOf node, 0)
decreasing_by
  all_goals have := sizeOf_lt_of_mem_children (mem_children_of_mem_named
    (by first | exact List.mem_of_find?_eq_some ‹_›
              | exact List.mem_reverse.mp (List.mem_of_find?_eq_some ‹_›)))
  all_goals omega

end

end Source

end WidthCheck
