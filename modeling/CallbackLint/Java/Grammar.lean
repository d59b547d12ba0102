import CallbackLint.Java.Pattern
/-!
# The grammar of Java

The phrases of Java and the pattern of each: types, expressions, statements and
declarations, with the kinds and roles that their nodes have in a syntax tree. The grammar
is generous: it takes every well-formed file, and does not try to refuse all others.

Three choices are settled by order. What can be read as a declaration of locals is one, so
`a < b > c;` declares `c`. What can be read as a cast is one, except that a name in
parentheses before a sign that may stand between two operands is an operand. And a `case`
label holds no lambda, since its arrow belongs to the rule.
-/

namespace CallbackLint

namespace Java

/-- The phrases of the grammar. A flag says whether a lambda may stand there; a level counts
the binary operators from those that bind least. -/
inductive Phrase where
  | program
  | statement
  | block
  | declaration
  | typeMember
  | classBody
  | interfaceBody
  | modifiers
  | annotationUse
  | elementValue
  | formalParameters
  | typeParameters
  | type
  | plainType
  | simpleType
  | typeArguments
  | dimensions
  | variableName
  | variableDeclarator
  | variableInitializer
  | localVariables
  | methodDeclaration
  | throwsClause
  | name
  | expression (lambdas : Bool)
  | binary (level : Nat) (lambdas : Bool)
  | unary (lambdas : Bool)
  | primary
  | parenthesized
  | arguments
  | creation
  | stringLiteral
  | lambda
  | switch
  | switchLabel
  | recordPattern
  | expressionStatement
  | throwStatement
  | tryTail
deriving Repr, DecidableEq, Inhabited

/-- Patterns over the phrases of Java. -/
abbrev Rule := Pattern Phrase

namespace Grammar

open Pattern

/-! ## Words -/

/-- The words that are never names. -/
def reserved : List String :=
  ["abstract", "assert", "boolean", "break", "byte", "case", "catch", "char", "class", "continue",
    "default", "do", "double", "else", "enum", "extends", "final", "finally", "float", "for", "if",
    "implements", "import", "instanceof", "int", "interface", "long", "native", "new", "null",
    "non-sealed", "package", "private", "protected", "public", "return", "short", "static",
    "strictfp", "super", "switch", "synchronized", "this", "throw", "throws", "transient", "true",
    "false", "try", "void", "volatile", "while"]

/-- A name. -/
def identifier : Rule := .wordBut "identifier" reserved

/-- A name after a dot, where few words have another meaning. -/
def selector : Rule := .wordBut "identifier" ["new", "super", "this", "class"]

/-- A name of a type. -/
def typeIdentifier : Rule := .wordBut "type_identifier" reserved

/-- The word `this`. -/
def thisWord : Rule := .wordAs "this" "this"

/-- The word `super`. -/
def superWord : Rule := .wordAs "super" "super"

/-- Any number of annotations. -/
def annotations : Rule := .many (.phrase .annotationUse)

/-- An expression in which a lambda may stand. -/
def expression : Rule := .phrase (.expression true)

/-- The modifiers of a declaration, where it has any. -/
def optModifiers : Rule := opt (.phrase .modifiers)

/-! ## Types -/

/-- A type that consists of one reserved word, which hangs below the node. -/
def primitive (kind : String) (words : List String) : Rule :=
  .node kind (alts (words.map .word))

/-- The types that are not made of names. -/
def primitiveType : Rule :=
  alts [.wordAs "void_type" "void",
    primitive "integral_type" ["byte", "short", "int", "long", "char"],
    primitive "floating_point_type" ["float", "double"], .wordAs "boolean_type" "boolean"]

/-- A type without dimensions. -/
def simpleType : Rule :=
  .alt primitiveType
    (.chain typeIdentifier
      (.alt
        (.wrap "generic_type" none ["type_identifier", "scoped_type_identifier"]
          (.phrase .typeArguments))
        (.wrap "scoped_type_identifier" none []
          (seqs [sign ".", annotations, .wordBut "type_identifier" reserved]))))

/-- A type with or without dimensions. -/
def plainType : Rule :=
  .chain (.phrase .simpleType)
    (.wrap "array_type" (some "element") [] (.field "dimensions" (.phrase .dimensions)))

/-- A type, with annotations in front of it or without. -/
def type : Rule :=
  .alt (.phrase .plainType)
    (.node "annotated_type" (.seq (many1 (.phrase .annotationUse)) (.phrase .plainType)))

/-- A type argument that stands for any type within a bound. -/
def wildcard : Rule :=
  .node "wildcard" (seqs [annotations, sign "?",
    opt (.alt (.seq (.word "extends") (.phrase .type)) (.seq superWord (.phrase .type)))])

/-- A list of type arguments. -/
def typeArguments : Rule :=
  .node "type_arguments" (seqs [sign "<", commas (.alt (.phrase .type) wildcard), sign ">"])

/-- Pairs of brackets. -/
def dimensions : Rule :=
  .node "dimensions" (many1 (seqs [annotations, sign "[", sign "]"]))

/-- A list of type parameters. -/
def typeParameters : Rule :=
  let bound := .node "type_bound" (.seq (.word "extends") (sep1 "&" (.phrase .type)))
  .node "type_parameters" (seqs [sign "<",
    sep1 "," (.node "type_parameter" (seqs [annotations, typeIdentifier, opt bound])), sign ">"])

/-! ## Expressions -/

/-- The kinds of number and character literal. -/
def literalKinds : List String :=
  ["decimal_integer_literal", "hex_integer_literal", "octal_integer_literal",
    "binary_integer_literal", "decimal_floating_point_literal", "hex_floating_point_literal",
    "character_literal"]

/-- A string, with the pieces it consists of. -/
def stringLiteral : Rule :=
  let interpolation :=
    .node "string_interpolation" (seqs [sign "\\\x7b", expression, sign "\x7d"])
  .node "string_literal"
    (.alt
      (seqs [sign "\"",
        .many (.alt (.literal ["string_fragment", "escape_sequence"]) interpolation),
        sign "\""])
      (seqs [sign "\"\"\"",
        .many (.alt (.literal ["multiline_string_fragment", "escape_sequence"]) interpolation),
        sign "\"\"\""]))

/-- A literal. -/
def literal : Rule :=
  alts [.literal literalKinds, .phrase .stringLiteral, .wordAs "null_literal" "null",
    .wordAs "true" "true", .wordAs "false" "false"]

/-- What is written after the type or the value that a method reference is about. -/
def referenceTail : Rule :=
  seqs [sign "::", opt (.phrase .typeArguments), .alt (.word "new") identifier]

/-- The arguments of a call, in their role. -/
def callArguments : Rule := .field "arguments" (.phrase .arguments)

/-- An expression that a suffix may follow, without its suffixes. -/
def primaryStart : Rule :=
  alts [
    .after (.phrase .plainType) (.wrap "class_literal" none [] (.seq (sign ".") (.word "class"))),
    .after (.phrase .plainType)
      (.wrap "method_reference" none
        ["generic_type", "array_type", "integral_type", "floating_point_type", "boolean_type",
          "void_type"]
        referenceTail),
    literal, thisWord, superWord,
    .node "method_invocation" (.seq (.field "name" identifier) callArguments),
    identifier, .phrase .parenthesized,
    .node "array_creation_expression" (seqs [.word "new", annotations,
      .field "type" (.phrase .simpleType),
      .alt
        (.seq
          (many1 (.field "dimensions" (.node "dimensions_expr"
            (seqs [annotations, sign "[", expression, sign "]"]))))
          (opt (.field "dimensions" (.phrase .dimensions))))
        (.seq (.field "dimensions" (.phrase .dimensions))
          (.field "value" (.phrase .variableInitializer)))]),
    .node "object_creation_expression" (.phrase .creation)]

/-- What may follow an expression and make a larger one of it. -/
def primarySuffix : Rule :=
  alts [
    .wrap "method_invocation" (some "object") []
      (seqs [sign ".", opt (.seq superWord (sign ".")),
        opt (.field "type_arguments" (.phrase .typeArguments)), .field "name" selector,
        callArguments]),
    .wrap "object_creation_expression" none [] (.seq (sign ".") (.phrase .creation)),
    .wrap "template_expression" (some "template_processor") []
      (.seq (sign ".") (.field "template_argument" (.phrase .stringLiteral))),
    .wrap "field_access" (some "object") []
      (seqs [opt (.seq (sign ".") superWord), sign ".", .field "field" (.alt thisWord selector)]),
    .wrap "array_access" (some "array") []
      (seqs [sign "[", .field "index" expression, sign "]"]),
    .wrap "method_reference" none [] referenceTail]

/-- A `new` expression for an object. -/
def creation : Rule :=
  seqs [.word "new", annotations,
    opt (.seq (.field "type_arguments" (.phrase .typeArguments)) annotations),
    .field "type" (.phrase .simpleType), callArguments, opt (.phrase .classBody)]

/-- A list of arguments. -/
def arguments : Rule :=
  .node "argument_list" (seqs [sign "(", commas expression, sign ")"])

/-- An expression in parentheses. -/
def parenthesized : Rule :=
  .node "parenthesized_expression" (seqs [sign "(", expression, sign ")"])

/-- A lambda. -/
def lambda : Rule :=
  let inferred :=
    .node "inferred_parameters" (seqs [sign "(", sep1 "," identifier, sign ")"])
  .node "lambda_expression" (seqs [
    .field "parameters" (alts [identifier, inferred, .phrase .formalParameters]), sign "->",
    .field "body" (.alt (.phrase .block) expression)])

/-- A cast. One to a type made of names does not start with a sign that may also stand
between two operands. -/
def cast (operand : Rule) : Rule :=
  .node "cast_expression"
    (.alt
      (seqs [sign "(", .field "type" primitiveType, sign ")", .field "value" operand])
      (seqs [sign "(", sep1 "&" (.field "type" (.phrase .type)), sign ")",
        .unless (alts [sign "+", sign "-", sign "++", sign "--"]), .field "value" operand]))

/-- The signs of assignment, each as the signs it is cut into. -/
def assignmentSigns : List (List String) :=
  [["="], ["+="], ["-="], ["*="], ["/="], ["&="], ["|="], ["^="], ["%="], ["<<="],
    [">", ">", ">", "="], [">", ">", "="]]

/-- An operand: an expression with its prefixes and suffixes. -/
def unary (lambdas : Bool) : Rule :=
  let operand := .phrase (.unary lambdas)
  alts [
    if lambdas then .phrase .lambda else .unless .nothing,
    .phrase .switch,
    .node "unary_expression" (.seq
      (.field "operator" (alts [sign "+", sign "-", sign "!", sign "~"]))
      (.field "operand" operand)),
    .node "update_expression" (.seq (.alt (sign "++") (sign "--")) operand),
    cast operand,
    .chain (.phrase .primary)
      (alts [
        .wrap "update_expression" none [] (.alt (sign "++") (sign "--")),
        .wrap "assignment_expression" (some "left") ["identifier", "field_access", "array_access"]
          (.seq (.field "operator" (alts (assignmentSigns.map .signs)))
            (.field "right" (.phrase (.expression lambdas))))])]

/-- The binary operators by level, each as the signs it is cut into. -/
def binarySigns : Nat → List (List String)
  | 0 => [["||"]]
  | 1 => [["&&"]]
  | 2 => [["|"]]
  | 3 => [["^"]]
  | 4 => [["&"]]
  | 5 => [["=="], ["!="]]
  | 6 => [["<="], [">", "="], ["<"], [">"]]
  | 7 => [["<<"], [">", ">", ">"], [">", ">"]]
  | 8 => [["+"], ["-"]]
  | 9 => [["*"], ["/"], ["%"]]
  | _ => []

/-- The test of a type, which stands among the comparisons. -/
def instanceofSuffix : Rule :=
  .wrap "instanceof_expression" (some "left") [] (seqs [.word "instanceof", opt (.word "final"),
    .alt (.field "pattern" (.phrase .recordPattern))
      (.seq (.field "right" (.phrase .type)) (opt (.field "name" identifier)))])

/-- An expression of binary operators from a level on. -/
def binary (level : Nat) (lambdas : Bool) : Rule :=
  if level < 10 then
    let operand := .phrase (.binary (level + 1) lambdas)
    let operation := .wrap "binary_expression" (some "left") []
      (.seq (.field "operator" (alts ((binarySigns level).map .signs))) (.field "right" operand))
    .chain operand (if level == 6 then .alt operation instanceofSuffix else operation)
  else .phrase (.unary lambdas)

/-- An expression. -/
def expressionOf (lambdas : Bool) : Rule :=
  .chain (.phrase (.binary 0 lambdas))
    (.wrap "ternary_expression" (some "condition") []
      (seqs [sign "?", .field "consequence" expression, sign ":",
        .field "alternative" (.phrase (.expression lambdas))]))

/-! ## Switch and patterns -/

/-- A switch, as a statement or as an expression. -/
def switch : Rule :=
  let groups := .many (.node "switch_block_statement_group"
    (.seq (many1 (.seq (.phrase .switchLabel) (sign ":"))) (.many (.phrase .statement))))
  let rules := .many (.node "switch_rule" (seqs [.phrase .switchLabel, sign "->",
    alts [.phrase .block, .phrase .throwStatement, .phrase .expressionStatement]]))
  .node "switch_expression" (seqs [.word "switch", .field "condition" (.phrase .parenthesized),
    .field "body" (.node "switch_block"
      (.alt (seqs [sign "\x7b", groups, sign "\x7d"]) (seqs [sign "\x7b", rules, sign "\x7d"])))])

/-- A label of a switch. -/
def switchLabel : Rule :=
  let pattern := .node "pattern" (.alt (.phrase .recordPattern)
    (.node "type_pattern" (.seq (.phrase .plainType) identifier)))
  .node "switch_label" (.alt
    (seqs [.word "case", .alt pattern (sep1 "," (.phrase (.expression false))),
      opt (.node "guard" (.seq (.word "when") (.phrase (.expression false))))])
    (.word "default"))

/-- A pattern that takes a record apart. -/
def recordPattern : Rule :=
  let head := .alt
    (.after typeIdentifier (.wrap "generic_type" none [] (.phrase .typeArguments))) identifier
  let component := .alt (.phrase .recordPattern) (.node "record_pattern_component"
    (.alt (.seq (.phrase .plainType) identifier) (.wordAs "underscore_pattern" "_")))
  .node "record_pattern" (.seq head
    (.node "record_pattern_body" (seqs [sign "(", commas component, sign ")"])))

/-! ## Declarations -/

/-- A dotted name. -/
def name : Rule :=
  .chain identifier (.wrap "scoped_identifier" (some "scope") []
    (.seq (sign ".") (.field "name" selector)))

/-- An annotation, with arguments or without. -/
def annotationUse : Rule :=
  let pair := .node "element_value_pair"
    (seqs [.field "key" identifier, sign "=", .field "value" (.phrase .elementValue)])
  let list := .node "annotation_argument_list" (.alt
    (seqs [sign "(", commas pair, sign ")"])
    (seqs [sign "(", .phrase .elementValue, sign ")"]))
  .alt
    (.node "annotation" (seqs [sign "@", .field "name" (.phrase .name), .field "arguments" list]))
    (.node "marker_annotation" (.seq (sign "@") (.field "name" (.phrase .name))))

/-- A value in an annotation. -/
def elementValue : Rule :=
  alts [.phrase .annotationUse,
    .node "element_value_array_initializer"
      (seqs [sign "\x7b", commas (.phrase .elementValue), opt (sign ","), sign "\x7d"]),
    expression]

/-- The words that modify a declaration. -/
def modifierWords : List String :=
  ["public", "protected", "private", "abstract", "static", "final", "strictfp", "default",
    "synchronized", "native", "transient", "volatile", "sealed", "non-sealed"]

/-- Modifiers and annotations. -/
def modifiers : Rule :=
  .node "modifiers" (many1 (.alt (.phrase .annotationUse) (alts (modifierWords.map .word))))

/-- The name of a variable with the dimensions behind it. -/
def variableName : Rule :=
  .seq (.field "name" (.alt (.wordAs "underscore_pattern" "_") identifier))
    (opt (.field "dimensions" (.phrase .dimensions)))

/-- A variable with its initial value. -/
def variableDeclarator : Rule :=
  .node "variable_declarator" (.seq (.phrase .variableName)
    (opt (.seq (sign "=")
      (.field "value" (.alt (.phrase .variableInitializer) expression)))))

/-- An initial value in braces. -/
def variableInitializer : Rule :=
  .node "array_initializer" (seqs [sign "\x7b",
    commas (.alt (.phrase .variableInitializer) expression), opt (sign ","), sign "\x7d"])

/-- A declaration of variables of one type. -/
def variableList (kind : String) : Rule :=
  .node kind (seqs [optModifiers, .field "type" (.phrase .plainType),
    sep1 "," (.field "declarator" (.phrase .variableDeclarator)), sign ";"])

/-- The parameters of a method, a record or a lambda. -/
def formalParameters : Rule :=
  let receiver := .node "receiver_parameter" (seqs [annotations, .phrase .plainType,
    .many (.seq identifier (sign ".")), thisWord])
  let formal := .node "formal_parameter" (seqs [optModifiers, .field "type" (.phrase .plainType),
    .phrase .variableName])
  let spread := .node "spread_parameter" (seqs [optModifiers, .phrase .plainType, sign "...",
    annotations, .phrase .variableDeclarator])
  let list := sep1 "," (.alt formal spread)
  .node "formal_parameters" (seqs [sign "(",
    opt (.alt (.seq receiver (opt (.seq (sign ",") list))) list), sign ")"])

/-- The exceptions that a method may throw. -/
def throwsClause : Rule :=
  .node "throws" (.seq (.word "throws") (sep1 "," (.phrase .type)))

/-- A method. -/
def methodDeclaration : Rule :=
  .node "method_declaration" (seqs [optModifiers,
    opt (.seq (.field "type_parameters" (.phrase .typeParameters)) annotations),
    .field "type" (.phrase .plainType), .field "name" identifier,
    .field "parameters" (.phrase .formalParameters),
    opt (.field "dimensions" (.phrase .dimensions)), opt (.phrase .throwsClause),
    .alt (.field "body" (.phrase .block)) (sign ";")])

/-- A constructor, whose body may start with a call of another one. -/
def constructorDeclaration : Rule :=
  let call := .node "explicit_constructor_invocation" (seqs [
    .alt
      (.seq (opt (.field "type_arguments" (.phrase .typeArguments)))
        (.field "constructor" (.alt thisWord superWord)))
      (seqs [.field "object" (.phrase .primary), sign ".",
        opt (.field "type_arguments" (.phrase .typeArguments)), .field "constructor" superWord]),
    callArguments, sign ";"])
  .node "constructor_declaration" (seqs [optModifiers,
    opt (.field "type_parameters" (.phrase .typeParameters)), .field "name" identifier,
    .field "parameters" (.phrase .formalParameters), opt (.phrase .throwsClause),
    .field "body" (.node "constructor_body"
      (seqs [sign "\x7b", opt call, .many (.phrase .statement), sign "\x7d"]))])

/-- A list of types after a word. -/
def typeListAfter (kind word : String) : Rule :=
  .node kind (.seq (.word word) (.node "type_list" (sep1 "," (.phrase .type))))

/-- The interfaces that a type implements. -/
def superInterfaces : Rule :=
  opt (.field "interfaces" (typeListAfter "super_interfaces" "implements"))

/-- The types that may extend a type. -/
def permitsClause : Rule :=
  opt (.field "permits" (typeListAfter "permits" "permits"))

/-- The type parameters of a declaration, where it has any. -/
def optTypeParameters : Rule :=
  opt (.field "type_parameters" (.phrase .typeParameters))

/-- A class. -/
def classDeclaration : Rule :=
  .node "class_declaration" (seqs [optModifiers, .word "class", .field "name" identifier,
    optTypeParameters,
    opt (.field "superclass" (.node "superclass" (.seq (.word "extends") (.phrase .type)))),
    superInterfaces, permitsClause, .field "body" (.phrase .classBody)])

/-- An interface. -/
def interfaceDeclaration : Rule :=
  .node "interface_declaration" (seqs [optModifiers, .word "interface", .field "name" identifier,
    optTypeParameters, opt (typeListAfter "extends_interfaces" "extends"), permitsClause,
    .field "body" (.phrase .interfaceBody)])

/-- A record. -/
def recordDeclaration : Rule :=
  .node "record_declaration" (seqs [optModifiers, .word "record", .field "name" identifier,
    optTypeParameters, .field "parameters" (.phrase .formalParameters), superInterfaces,
    .field "body" (.phrase .classBody)])

/-- An enumeration. -/
def enumDeclaration : Rule :=
  let constant := .node "enum_constant" (seqs [optModifiers, .field "name" identifier,
    opt callArguments, opt (.field "body" (.phrase .classBody))])
  .node "enum_declaration" (seqs [optModifiers, .word "enum", .field "name" identifier,
    superInterfaces,
    .field "body" (.node "enum_body" (seqs [sign "\x7b", commas constant, opt (sign ","),
      opt (.node "enum_body_declarations" (.seq (sign ";") (.many (.phrase .typeMember)))),
      sign "\x7d"]))])

/-- A type of annotations. -/
def annotationTypeDeclaration : Rule :=
  let element := .node "annotation_type_element_declaration" (seqs [optModifiers,
    .field "type" (.phrase .plainType), .field "name" identifier, sign "(", sign ")",
    opt (.field "dimensions" (.phrase .dimensions)),
    opt (.seq (.word "default") (.field "value" (.phrase .elementValue))), sign ";"])
  .node "annotation_type_declaration" (seqs [optModifiers, sign "@interface",
    .field "name" identifier,
    .field "body" (.node "annotation_type_body" (seqs [sign "\x7b",
      .many (alts [sign ";", .phrase .declaration, element, variableList "constant_declaration"]),
      sign "\x7d"]))])

/-- A module. -/
def moduleDeclaration : Rule :=
  let names := sep1 "," (.field "modules" (.phrase .name))
  let requires := .node "requires_module_directive" (seqs [.word "requires",
    .many (.field "modifiers" (.node "requires_modifier"
      (.alt (.word "transitive") (.word "static")))),
    .field "module" (.phrase .name), sign ";"])
  let exporting (kind word : String) := .node kind (seqs [.word word,
    .field "package" (.phrase .name), opt (.seq (.word "to") names), sign ";"])
  let uses := .node "uses_module_directive"
    (seqs [.word "uses", .field "type" (.phrase .name), sign ";"])
  let provides := .node "provides_module_directive" (seqs [.word "provides",
    .field "provided" (.phrase .name), .word "with",
    sep1 "," (.field "provider" (.phrase .name)), sign ";"])
  .node "module_declaration" (seqs [annotations, opt (.word "open"), .word "module",
    .field "name" (.phrase .name),
    .field "body" (.node "module_body" (seqs [sign "\x7b",
      .many (alts [requires, exporting "exports_module_directive" "exports",
        exporting "opens_module_directive" "opens", uses, provides]),
      sign "\x7d"]))])

/-- A package declaration. -/
def packageDeclaration : Rule :=
  .node "package_declaration" (seqs [annotations, .word "package", .phrase .name, sign ";"])

/-- An import. -/
def importDeclaration : Rule :=
  .node "import_declaration" (seqs [.word "import", opt (.word "static"), .phrase .name,
    opt (.seq (sign ".") (.node "asterisk" (sign "*"))), sign ";"])

/-- Everything that can be declared inside a block as well as in a file. -/
def declaration : Rule :=
  alts [classDeclaration, interfaceDeclaration, enumDeclaration, recordDeclaration,
    annotationTypeDeclaration, importDeclaration, packageDeclaration, moduleDeclaration]

/-- A member of a class, an enumeration or a record. -/
def typeMember : Rule :=
  alts [sign ";", .phrase .block,
    .node "static_initializer" (.seq (.word "static") (.phrase .block)),
    .phrase .declaration, .phrase .methodDeclaration, constructorDeclaration,
    .node "compact_constructor_declaration"
      (seqs [optModifiers, .field "name" identifier, .field "body" (.phrase .block)]),
    variableList "field_declaration"]

/-- The body of a class. -/
def classBody : Rule :=
  .node "class_body" (seqs [sign "\x7b", .many (.phrase .typeMember), sign "\x7d"])

/-- The body of an interface. -/
def interfaceBody : Rule :=
  .node "interface_body" (seqs [sign "\x7b",
    .many (alts [sign ";", .phrase .declaration, .phrase .methodDeclaration,
      variableList "constant_declaration"]),
    sign "\x7d"])

/-! ## Statements -/

/-- A block. A semicolon after a switch that opens a block belongs to the switch. -/
def block : Rule :=
  .node "block" (seqs [sign "\x7b",
    opt (.node "expression_statement" (.seq (.phrase .switch) (sign ";"))),
    .many (.phrase .statement), sign "\x7d"])

/-- An expression that stands as a statement. -/
def expressionStatement : Rule :=
  .node "expression_statement" (.seq expression (sign ";"))

/-- A `throw` statement. -/
def throwStatement : Rule :=
  .node "throw_statement" (seqs [.word "throw", expression, sign ";"])

/-- A statement that a word introduces and a semicolon ends. -/
def wordStatement (kind word : String) (p : Rule) : Rule :=
  .node kind (seqs [.word word, p, sign ";"])

/-- A condition in parentheses. -/
def condition : Rule := .field "condition" (.phrase .parenthesized)

/-- A statement that is the body of another. -/
def bodyStatement : Rule := .field "body" (.phrase .statement)

/-- The two forms of a `for` statement. -/
def forStatement : Rule :=
  .alt
    (.node "enhanced_for_statement" (seqs [.word "for", sign "(", optModifiers,
      .field "type" (.phrase .plainType), .phrase .variableName, sign ":",
      .field "value" expression, sign ")", bodyStatement]))
    (.node "for_statement" (seqs [.word "for", sign "(",
      .alt (.field "init" (.phrase .localVariables))
        (.seq (commas (.field "init" expression)) (sign ";")),
      opt (.field "condition" expression), sign ";", commas (.field "update" expression),
      sign ")", bodyStatement]))

/-- The handlers of a `try` statement, any number of them. -/
def tryTail : Rule :=
  let catchClause := .node "catch_clause" (seqs [.word "catch", sign "(",
    .node "catch_formal_parameter" (seqs [optModifiers,
      .node "catch_type" (sep1 "|" (.phrase .plainType)), .phrase .variableName]),
    sign ")", .field "body" (.phrase .block)])
  .seq (.many catchClause)
    (opt (.node "finally_clause" (.seq (.word "finally") (.phrase .block))))

/-- The two forms of a `try` statement. -/
def tryStatement : Rule :=
  let resource := .node "resource" (.alt
    (seqs [optModifiers, .field "type" (.phrase .plainType), .phrase .variableName, sign "=",
      .field "value" expression])
    (.phrase .primary))
  .alt
    (.node "try_with_resources_statement" (seqs [.word "try",
      .field "resources" (.node "resource_specification"
        (seqs [sign "(", sep1 ";" resource, opt (sign ";"), sign ")"])),
      .field "body" (.phrase .block), .phrase .tryTail]))
    (.node "try_statement" (seqs [.word "try", .field "body" (.phrase .block), .phrase .tryTail]))

/-- A statement. -/
def statement : Rule :=
  alts [
    sign ";", .phrase .block, .phrase .declaration,
    .node "if_statement" (seqs [.word "if", condition,
      .field "consequence" (.phrase .statement),
      opt (.seq (.word "else") (.field "alternative" (.phrase .statement)))]),
    .node "while_statement" (seqs [.word "while", condition, bodyStatement]),
    forStatement,
    .node "do_statement" (seqs [.word "do", bodyStatement, .word "while", condition, sign ";"]),
    .node "assert_statement" (seqs [.word "assert", expression,
      opt (.seq (sign ":") expression), sign ";"]),
    wordStatement "break_statement" "break" (opt identifier),
    wordStatement "continue_statement" "continue" (opt identifier),
    wordStatement "return_statement" "return" (opt expression),
    wordStatement "yield_statement" "yield" expression,
    .phrase .throwStatement,
    .node "synchronized_statement" (seqs [.word "synchronized", .phrase .parenthesized,
      .field "body" (.phrase .block)]),
    tryStatement,
    .phrase .switch,
    .node "labeled_statement" (seqs [identifier, sign ":", .phrase .statement]),
    .phrase .localVariables,
    .phrase .expressionStatement]

/-- The content of a file. -/
def program : Rule :=
  .many (.alt (.phrase .statement) (.phrase .methodDeclaration))

/-- The pattern of each phrase. -/
def rule : Phrase → Rule
  | .program => program
  | .statement => statement
  | .block => block
  | .declaration => declaration
  | .typeMember => typeMember
  | .classBody => classBody
  | .interfaceBody => interfaceBody
  | .modifiers => modifiers
  | .annotationUse => annotationUse
  | .elementValue => elementValue
  | .formalParameters => formalParameters
  | .typeParameters => typeParameters
  | .type => type
  | .plainType => plainType
  | .simpleType => simpleType
  | .typeArguments => typeArguments
  | .dimensions => dimensions
  | .variableName => variableName
  | .variableDeclarator => variableDeclarator
  | .variableInitializer => variableInitializer
  | .localVariables => variableList "local_variable_declaration"
  | .methodDeclaration => methodDeclaration
  | .throwsClause => throwsClause
  | .name => name
  | .expression lambdas => expressionOf lambdas
  | .binary level lambdas => binary level lambdas
  | .unary lambdas => unary lambdas
  | .primary => .chain primaryStart primarySuffix
  | .parenthesized => parenthesized
  | .arguments => arguments
  | .creation => creation
  | .stringLiteral => stringLiteral
  | .lambda => lambda
  | .switch => switch
  | .switchLabel => switchLabel
  | .recordPattern => recordPattern
  | .expressionStatement => expressionStatement
  | .throwStatement => throwStatement
  | .tryTail => tryTail

end Grammar

end Java

end CallbackLint
