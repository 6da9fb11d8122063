/-!
# Labels of parse tree nodes

The kinds of node and the field names that the analysis tells apart. All other kinds and fields
keep their name and are treated alike.
-/

namespace WidthCheck

/-- What a node of the parse tree is. -/
inductive Kind where
  | namespaceDefinition
  | classSpecifier
  | structSpecifier
  | unionSpecifier
  | enumSpecifier
  | typeDefinition
  | aliasDeclaration
  | templateDeclaration
  | templateInstantiation
  | functionDefinition
  | declaration
  | fieldDeclaration
  | forRangeLoop
  | catchClause
  | lambdaExpression
  | callExpression
  | compoundStatement
  | fieldInitializerList
  | tryStatement
  | parameterDeclaration
  | optionalParameterDeclaration
  | typeParameterDeclaration
  | variadicTypeParameterDeclaration
  | optionalTypeParameterDeclaration
  | templateParameterList
  | requiresClause
  | storageClassSpecifier
  | typeQualifier
  | primitiveType
  | sizedTypeSpecifier
  | typeIdentifier
  | placeholderTypeSpecifier
  | typeDescriptor
  | trailingReturnType
  | initDeclarator
  | parenthesizedDeclarator
  | attributedDeclarator
  | pointerDeclarator
  | referenceDeclarator
  | arrayDeclarator
  | functionDeclarator
  | abstractPointerDeclarator
  | abstractReferenceDeclarator
  | abstractArrayDeclarator
  | abstractFunctionDeclarator
  | abstractParenthesizedDeclarator
  | operatorCast
  | qualifiedIdentifier
  | templateFunction
  | templateType
  | destructorName
  | identifier
  | numberLiteral
  | charLiteral
  | trueLiteral
  | falseLiteral
  | sizeofExpression
  | alignofExpression
  | parenthesizedExpression
  | initializerList
  | argumentList
  | unaryExpression
  | castExpression
  /-- The keyword `auto`. -/
  | autoKeyword
  /-- The keyword `class`. -/
  | classKeyword
  /-- The keyword `struct`. -/
  | structKeyword
  /-- The sign `&&`. -/
  | doubleAmpersand
  | other (name : String)
deriving DecidableEq, Repr, Inhabited

namespace Kind

/-- The kinds that the analysis tells apart, by name. -/
def table : List (String × Kind) :=
  [("namespace_definition", namespaceDefinition),
   ("class_specifier", classSpecifier),
   ("struct_specifier", structSpecifier),
   ("union_specifier", unionSpecifier),
   ("enum_specifier", enumSpecifier),
   ("type_definition", typeDefinition),
   ("alias_declaration", aliasDeclaration),
   ("template_declaration", templateDeclaration),
   ("template_instantiation", templateInstantiation),
   ("function_definition", functionDefinition),
   ("declaration", declaration),
   ("field_declaration", fieldDeclaration),
   ("for_range_loop", forRangeLoop),
   ("catch_clause", catchClause),
   ("lambda_expression", lambdaExpression),
   ("call_expression", callExpression),
   ("compound_statement", compoundStatement),
   ("field_initializer_list", fieldInitializerList),
   ("try_statement", tryStatement),
   ("parameter_declaration", parameterDeclaration),
   ("optional_parameter_declaration", optionalParameterDeclaration),
   ("type_parameter_declaration", typeParameterDeclaration),
   ("variadic_type_parameter_declaration", variadicTypeParameterDeclaration),
   ("optional_type_parameter_declaration", optionalTypeParameterDeclaration),
   ("template_parameter_list", templateParameterList),
   ("requires_clause", requiresClause),
   ("storage_class_specifier", storageClassSpecifier),
   ("type_qualifier", typeQualifier),
   ("primitive_type", primitiveType),
   ("sized_type_specifier", sizedTypeSpecifier),
   ("type_identifier", typeIdentifier),
   ("placeholder_type_specifier", placeholderTypeSpecifier),
   ("type_descriptor", typeDescriptor),
   ("trailing_return_type", trailingReturnType),
   ("init_declarator", initDeclarator),
   ("parenthesized_declarator", parenthesizedDeclarator),
   ("attributed_declarator", attributedDeclarator),
   ("pointer_declarator", pointerDeclarator),
   ("reference_declarator", referenceDeclarator),
   ("array_declarator", arrayDeclarator),
   ("function_declarator", functionDeclarator),
   ("abstract_pointer_declarator", abstractPointerDeclarator),
   ("abstract_reference_declarator", abstractReferenceDeclarator),
   ("abstract_array_declarator", abstractArrayDeclarator),
   ("abstract_function_declarator", abstractFunctionDeclarator),
   ("abstract_parenthesized_declarator", abstractParenthesizedDeclarator),
   ("operator_cast", operatorCast),
   ("qualified_identifier", qualifiedIdentifier),
   ("template_function", templateFunction),
   ("template_type", templateType),
   ("destructor_name", destructorName),
   ("identifier", identifier),
   ("number_literal", numberLiteral),
   ("char_literal", charLiteral),
   ("true", trueLiteral),
   ("false", falseLiteral),
   ("sizeof_expression", sizeofExpression),
   ("alignof_expression", alignofExpression),
   ("parenthesized_expression", parenthesizedExpression),
   ("initializer_list", initializerList),
   ("argument_list", argumentList),
   ("unary_expression", unaryExpression),
   ("cast_expression", castExpression),
   ("auto", autoKeyword),
   ("class", classKeyword),
   ("struct", structKeyword),
   ("&&", doubleAmpersand)]

def ofName (name : String) : Kind := (table.lookup name).getD (other name)

/-- Whether this is a declarator without a name. -/
def isAbstract : Kind → Bool
  | abstractPointerDeclarator | abstractReferenceDeclarator | abstractArrayDeclarator
  | abstractFunctionDeclarator | abstractParenthesizedDeclarator => true
  | other name => "abstract_".isPrefixOf name
  | _ => false

/-- Whether this declares a function parameter. -/
def isParameter : Kind → Bool
  | parameterDeclaration | optionalParameterDeclaration => true
  | _ => false

end Kind

/-- The role of a node under its parent. -/
inductive Field where
  | name
  | body
  | value
  | declarator
  | type
  | defaultValue
  | defaultType
  | initializer
  | right
  | parameters
  | captures
  | function
  | arguments
  | argument
  | operator
  | scope
  | size
  | other (name : String)
deriving DecidableEq, Repr

namespace Field

/-- The fields that the analysis asks for, by name. -/
def table : List (String × Field) :=
  [("name", name),
   ("body", body),
   ("value", value),
   ("declarator", declarator),
   ("type", type),
   ("default_value", defaultValue),
   ("default_type", defaultType),
   ("initializer", initializer),
   ("right", right),
   ("parameters", parameters),
   ("captures", captures),
   ("function", function),
   ("arguments", arguments),
   ("argument", argument),
   ("operator", operator),
   ("scope", scope),
   ("size", size)]

/-- The field of this name; the empty name stands for none. -/
def ofName (name : String) : Option Field :=
  if name = "" then none else some ((table.lookup name).getD (other name))

end Field

end WidthCheck
