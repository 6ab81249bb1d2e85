import ModuleAtlas.Lexicon.EcmaScript
import ModuleAtlas.Syntax.Grammar

/-!
# The grammar of ECMAScript and its typed variant

One grammar serves three variants, told apart by `Variant`: whether there are type annotations, and
whether there is markup in expressions. Nodes and fields have the names that the extraction knows;
what it does not look into may be a flat run of tokens.

A construct that may hold statements never stands in two alternatives of a choice that could both
read it, so a text that goes wrong deep inside is not read again at every level.
-/

namespace ModuleAtlas.EcmaScript

open Syntax

/-- The variants of the language. -/
structure Variant where
  /-- type annotations and declarations of types -/
  types : Bool
  /-- markup in expressions -/
  markup : Bool
  deriving DecidableEq, Repr

/-- The rules of the grammar. -/
inductive Rule where
  | file
  | statement
  | block
  | declaration
  | variables
  | sequence
  | assignment
  | conditional
  | unary
  | chain
  | suffixes
  | calls
  | primary
  | constructed
  | classBody
  | member
  | property
  | key
  | binding
  | destructuring
  | parameters
  | arguments
  | template
  | markup (inner : Bool)
  | typeTemplate
  | type
  | plainType
  | extendedType
  | simpleType (bounded : Bool)
  | typeArguments
  | typeParameters
  | typeMember
  deriving DecidableEq, Repr

/-- A phrase of the grammar. -/
abbrev ScriptPhrase := Phrase Terminal Rule

/-- A keyword. -/
def word (text : String) : ScriptPhrase := .terminal (.word text)

/-- A punctuation mark. -/
def mark (text : String) : ScriptPhrase := .terminal (.mark text)

/-- One of several punctuation marks. -/
def oneOf (texts : List String) : ScriptPhrase := .any (texts.map mark)

/-- A name where no other word could stand. -/
def name (kind : String) : ScriptPhrase := .terminal (.name kind [])

/-- The name of a variable or a function. -/
def identifier : ScriptPhrase := name "identifier"

/-- The name of a property. -/
def propertyName : ScriptPhrase := name "property_identifier"

/-- The name of a type. -/
def typeTitle : ScriptPhrase := name "type_identifier"

/-- A variable where any operand could stand. -/
def operandName : ScriptPhrase := .terminal (.name "identifier" operandWords)

/-- The name of a type where any type could stand. -/
def typeName : ScriptPhrase := .terminal (.name "type_identifier" typeWords)

/-- The name of a label. -/
def label (taken : List String) : ScriptPhrase := .terminal (.name "statement_identifier" taken)

/-- A string literal. -/
def quoted : ScriptPhrase := .terminal .quoted

/-- A phrase in brackets. -/
def bracketed (opening closing : String) (body : ScriptPhrase) : ScriptPhrase :=
  .all [mark opening, body, mark closing]

/-- A phrase in parentheses. -/
def parens (body : ScriptPhrase) : ScriptPhrase := bracketed "(" ")" body

/-- A phrase in square brackets. -/
def squares (body : ScriptPhrase) : ScriptPhrase := bracketed "[" "]" body

/-- A phrase in braces. -/
def braces (body : ScriptPhrase) : ScriptPhrase := bracketed "\x7b" "\x7d" body

/-- Phrases with commas between them and perhaps one at the end. -/
def commaList (p : ScriptPhrase) : ScriptPhrase := .listOf (mark ",") p

/-- Phrases with commas between them, any of which may be missing. -/
def gappedList (p : ScriptPhrase) : ScriptPhrase := .seq (.opt p) (.many (.seq (mark ",") (.opt p)))

/-- The end of a statement. -/
def semicolon : ScriptPhrase := .terminal .semicolon

/-- An expression without commas. -/
def value : ScriptPhrase := .rule .assignment

/-- A phrase that never succeeds. -/
def never : ScriptPhrase := .notAhead .nothing

/-- A phrase of the typed variants only. -/
def Variant.typed (v : Variant) (p : ScriptPhrase) : ScriptPhrase := if v.types then p else never

/-- Phrases that the typed variants may hold one after the other. -/
def Variant.typedOpt (v : Variant) (ps : List ScriptPhrase) : ScriptPhrase :=
  if v.types then .maybe ps else .nothing

/-- A type annotation. -/
def annotated : ScriptPhrase :=
  .field "type" (.node "type_annotation" (.seq (mark ":") (.rule .type)))

/-- A type annotation, which may be missing. -/
def Variant.annotation (v : Variant) : ScriptPhrase := v.typedOpt [annotated]

/-- The type parameters of a declaration. -/
def Variant.generic (v : Variant) : ScriptPhrase := v.typedOpt [.rule .typeParameters]

/-- Parameters and the annotation of the result. -/
def Variant.signature (v : Variant) : ScriptPhrase :=
  .all [v.generic, .rule .parameters, v.annotation]

/-- The value a variable, a parameter or a field starts with. -/
def initializer : ScriptPhrase := .maybe [mark "=", .field "value" value]

/-- The body of a method; a typed declaration may leave it out. -/
def Variant.body (v : Variant) : ScriptPhrase := .any [.field "body" (.rule .block), v.typed semicolon]

/-- Access to a property. -/
def propertyAccess (property : ScriptPhrase) : ScriptPhrase :=
  .extend "member_expression" "object" (.seq (mark ".") (.field "property" property))

/-- Words in front of a member or a parameter, each with a name after it. -/
def modifiers (words : List String) : ScriptPhrase :=
  .many (.seq (.any (words.map word))
    (.notAhead (oneOf ["(", ",", ":", "=", "?", "!", ";", "<", ")", "\x7d"])))

/-- A decorator. -/
def decorator : ScriptPhrase :=
  .node "decorator" (.seq (mark "@") (.any [
    .node "parenthesized_expression" (parens (.rule .sequence)),
    .all [identifier, .many (propertyAccess propertyName),
      .opt (.extend "call_expression" "function" (.field "arguments" (.rule .arguments)))]]))

/-! ## Imports and exports -/

/-- The name of an imported or exported thing. -/
def moduleName : ScriptPhrase := .any [quoted, identifier]

/-- One listed name, perhaps under another one that is `renamed`. -/
def Variant.specifier (v : Variant) (kind : String) (renamed : ScriptPhrase) : ScriptPhrase :=
  let plain : ScriptPhrase :=
    .any [.all [.field "name" moduleName, word "as", .field "alias" renamed], .field "name" renamed]
  .node kind (.any [
    v.typed (.all [.any [word "type", word "typeof"], plain, .ahead (oneOf [",", "\x7d"])]),
    plain])

/-- The attributes of an import. -/
def attributes : ScriptPhrase :=
  .opt (.node "import_attribute" (.seq (word "with")
    (.node "object" (braces (commaList (.rule .property))))))

/-- The module that a statement names, after its keyword. -/
def source : ScriptPhrase := .seq (word "from") (.field "source" quoted)

/-- The names an import statement binds. -/
def Variant.importClause (v : Variant) : ScriptPhrase :=
  let whole : ScriptPhrase := .node "namespace_import" (.all [mark "*", word "as", identifier])
  let listed : ScriptPhrase :=
    .node "named_imports" (braces (commaList (v.specifier "import_specifier" identifier)))
  .node "import_clause" (.any [whole, listed,
    .seq identifier (.maybe [mark ",", .any [whole, listed]])])

/-- An import statement. -/
def Variant.importStatement (v : Variant) : ScriptPhrase :=
  let required : ScriptPhrase := .node "import_require_clause"
    (.all [identifier, mark "=", word "require", parens (.field "source" quoted)])
  let bound : ScriptPhrase :=
    .any [.field "source" quoted, .seq v.importClause source, v.typed required]
  .node "import_statement" (.all [word "import",
    .any [v.typed (.seq (.any [word "type", word "typeof"]) bound), bound],
    attributes, semicolon])

/-- The statement that gives a name to a member of a namespace. -/
def importAlias : ScriptPhrase :=
  .node "import_alias" (.all [word "import", identifier, mark "=", .sepBy (mark ".") identifier,
    semicolon])

/-- The start of a function or a class without a name. -/
def anonymous : ScriptPhrase :=
  .any [
    .all [.opt (word "async"), word "function", .opt (mark "*"), oneOf ["(", "<"]],
    .seq (word "class") (.any [mark "\x7b", mark "<", word "extends", word "implements"])]

/-- The words that begin a declaration of the typed variants only. -/
def Variant.typedWords (v : Variant) : ScriptPhrase :=
  v.typed (.any (["abstract", "enum", "interface"].map word))

/-- An export statement. -/
def Variant.exportStatement (v : Variant) : ScriptPhrase :=
  let from' : ScriptPhrase := .seq source attributes
  let asType : ScriptPhrase := v.typedOpt [word "type", .ahead (oneOf ["*", "\x7b"])]
  let everything : ScriptPhrase :=
    .any [.node "namespace_export" (.all [mark "*", word "as", moduleName]), mark "*"]
  let listed : ScriptPhrase :=
    .node "export_clause" (braces (commaList (v.specifier "export_specifier" moduleName)))
  let declaration : ScriptPhrase := .field "declaration" (.rule .declaration)
  .node "export_statement" (.all [.many (.field "decorator" decorator), word "export",
    .any [.terminal .sameLine, .ahead (oneOf ["*", "="])], .any [
    .all [asType, everything, from', semicolon],
    .all [asType, listed, .opt from', semicolon],
    .seq (word "default") (.any [
      .all [.ahead anonymous, .field "value" (.rule .primary), semicolon],
      declaration,
      .all [.notAhead (.any [word "function", word "class", v.typedWords]), .field "value" value,
        semicolon]]),
    v.typed (.all [mark "=", .rule .sequence, semicolon]),
    v.typed (.all [word "as", word "namespace", identifier, semicolon]),
    v.typed (.field "declaration" importAlias),
    declaration]])

/-! ## Declarations -/

/-- What a declaration introduces: a name or a destructuring. -/
def declared : ScriptPhrase := .any [identifier, .rule .destructuring]

/-- One variable with its type and value. -/
def Variant.declarator (v : Variant) : ScriptPhrase :=
  .node "variable_declarator" (.any [
    v.typed (.all [.field "name" identifier, mark "!", annotated]),
    .all [.field "name" declared, v.annotation, initializer]])

/-- A declaration of variables or constants. The word `let` is a name where no declaration follows
it. -/
def Variant.variables (v : Variant) : ScriptPhrase :=
  let declarators : ScriptPhrase := .sepBy (mark ",") v.declarator
  .any [
    .node "variable_declaration" (.seq (word "var") declarators),
    .node "lexical_declaration" (.seq (.any [
        .seq (.notAhead (.seq (word "const") (word "enum"))) (word "const"),
        .seq (word "let") (.ahead (.any [.terminal (.name "identifier" ["in", "instanceof"]),
          mark "[", mark "\x7b"]))])
      declarators)]

/-- A function with a name. A typed declaration may leave the body out. -/
def Variant.functionDeclaration (v : Variant) : ScriptPhrase :=
  let async : ScriptPhrase := .opt (.seq (word "async") (.terminal .sameLine))
  let title : ScriptPhrase := .seq (.field "name" identifier) v.signature
  let body : ScriptPhrase := .field "body" (.rule .block)
  .any [
    v.typed (.node "function_signature" (.all [async, word "function", title,
      .notAhead (mark "\x7b"), semicolon])),
    .node "function_declaration" (.all [async, word "function", title, body]),
    .node "generator_function_declaration"
      (.all [async, word "function", mark "*", title, v.body])]

/-- A function as an expression; its name is optional. -/
def Variant.functionExpression (v : Variant) : ScriptPhrase :=
  .node "function_expression" (.all [.opt (.seq (word "async") (.terminal .sameLine)),
    word "function", .opt (mark "*"), .opt (.field "name" identifier), v.signature,
    .field "body" (.rule .block)])

/-- What a class extends and implements. -/
def Variant.heritage (v : Variant) : ScriptPhrase :=
  .seq (.opt (.node "extends_clause" (.all [word "extends", .field "value" (.rule .chain),
      v.typedOpt [.field "type_arguments" (.rule .typeArguments)],
      if v.types then
        .many (.all [mark ",", .field "value" (.rule .chain),
          .opt (.field "type_arguments" (.rule .typeArguments))])
      else .nothing])))
    (v.typedOpt [.node "implements_clause"
      (.seq (word "implements") (.sepBy (mark ",") (.rule .type)))])

/-- A class after what stands in front of it; the title tells whether it has a name. -/
def Variant.classRest (v : Variant) (title : ScriptPhrase) : ScriptPhrase :=
  .all [word "class", title, v.generic, v.heritage, .field "body" (.rule .classBody)]

/-- The name of a class. -/
def Variant.className (v : Variant) : ScriptPhrase :=
  .seq (.notAhead (.any [word "extends", word "implements"]))
    (.field "name" (name (if v.types then "type_identifier" else "identifier")))

/-- A class with a name. -/
def Variant.classDeclaration (v : Variant) : ScriptPhrase :=
  .any [
    v.typed (.node "abstract_class_declaration" (.seq (word "abstract") (v.classRest v.className))),
    .node "class_declaration" (.all [.many (.field "decorator" decorator),
      v.typedOpt [word "abstract"], v.classRest v.className])]

/-- A class as an expression; its name is optional. -/
def Variant.classExpression (v : Variant) : ScriptPhrase :=
  .node "class" (.all [.many (.field "decorator" decorator), v.typedOpt [word "abstract"],
    v.classRest (.opt v.className)])

/-- The declarations that only the typed variants have. -/
def Variant.typedDeclaration (v : Variant) : ScriptPhrase :=
  let parameters : ScriptPhrase := .opt (.field "type_parameters" (.rule .typeParameters))
  let qualified : ScriptPhrase :=
    .field "name" (.gather "nested_identifier" (.sepBy (mark ".") identifier))
  let block : ScriptPhrase := .field "body" (.rule .block)
  v.typed (.any [
    .node "interface_declaration" (.all [word "interface", .field "name" typeTitle, parameters,
      .opt (.node "extends_type_clause"
        (.seq (word "extends") (.sepBy (mark ",") (.rule .type)))),
      .field "body" (.node "interface_body" (braces (.many (.rule .typeMember))))]),
    .node "type_alias_declaration" (.all [word "type", .field "name" typeTitle, parameters,
      mark "=", .field "value" (.rule .type), semicolon]),
    .node "enum_declaration" (.all [.opt (word "const"), word "enum", .field "name" identifier,
      .field "body" (.node "enum_body" (braces (commaList (.seq (.rule .key) initializer))))]),
    .node "internal_module" (.all [word "namespace", qualified, block]),
    .node "module" (.all [word "module", .any [.field "name" quoted, qualified],
      .any [block, semicolon]]),
    .node "ambient_declaration" (.all [word "declare",
      .any [.seq (word "global") (.rule .block), .rule .declaration]])])

/-! ## Statements -/

/-- What stands in the parentheses of a `for` statement. -/
def Variant.loopHeader (v : Variant) : ScriptPhrase :=
  let each : ScriptPhrase := .any [word "of", word "in"]
  .any [
    .all [.any [word "var", word "const", word "let"], declared, v.annotation, each,
      .rule .sequence],
    .all [.any [.seq (.rule .variables) (mark ";"), .seq (.opt (.rule .sequence)) (mark ";")],
      .opt (.rule .sequence), mark ";", .opt (.rule .sequence)],
    .all [.rule .chain, each, .rule .sequence]]

/-- A condition in parentheses. -/
def condition : ScriptPhrase := .node "parenthesized_expression" (parens (.rule .sequence))

/-- A jump with an optional label on the same line. -/
def jump (kind keyword : String) : ScriptPhrase :=
  .node kind (.all [word keyword, .maybe [.terminal .sameLine, label []], semicolon])

/-- Braces with properties in them where a block could stand too. No word of a statement may follow
the opening brace. -/
def properties : ScriptPhrase :=
  braces (.seq (.notAhead (.any (mark "\x7d" :: (operandWords ++ statementWords).map word)))
    (gappedList (.rule .property)))

/-- A word that would begin a declaration if a line end did not make it a statement of its own. -/
def Variant.loneWord (v : Variant) : ScriptPhrase :=
  let words : List String :=
    "let" :: if v.types then ["declare", "module", "namespace", "type"] else []
  .seq (.any (words.map word)) (.notAhead (.any [.terminal .sameLine, mark "["]))

/-- The start of a statement that is no expression. -/
def Variant.notExpression (v : Variant) : ScriptPhrase :=
  .any ([mark "\x7b", mark "@",
      .all [.opt (word "async"), word "function", .opt (mark "*"), identifier],
      .seq (word "class") (.terminal (.name "identifier" ["extends", "implements"])),
      .seq (word "export") (mark "*")] ++
    statementWords.map word ++ [v.typedWords])

/-- The statements, from the most particular to expressions. -/
def Variant.statement (v : Variant) : ScriptPhrase :=
  let body : ScriptPhrase := .field "body" (.rule .statement)
  .any [
    .node "expression_statement" (.all [.ahead properties, .rule .sequence, semicolon]),
    .rule .block,
    .node "empty_statement" (mark ";"),
    .terminal .oldComment,
    v.importStatement,
    v.typed importAlias,
    v.exportStatement,
    .seq (.notAhead v.loneWord) (.rule .declaration),
    .node "if_statement" (.all [word "if", condition, .field "consequence" (.rule .statement),
      .opt (.node "else_clause" (.seq (word "else") (.rule .statement)))]),
    .node "for_statement" (.all [word "for", .opt (word "await"), parens v.loopHeader, body]),
    .node "while_statement" (.all [word "while", condition, body]),
    .node "do_statement" (.all [word "do", body, word "while", condition, .opt (mark ";")]),
    .node "switch_statement" (.all [word "switch", condition, .node "switch_body" (braces (.many
      (.node "switch_case" (.all [.any [.seq (word "case") (.rule .sequence), word "default"],
        mark ":", .many (.rule .statement)]))))]),
    .node "try_statement" (.all [word "try", .rule .block,
      .opt (.node "catch_clause" (.all [word "catch", .opt (parens (.seq declared v.annotation)),
        .rule .block])),
      .opt (.node "finally_clause" (.seq (word "finally") (.rule .block)))]),
    .node "return_statement"
      (.all [word "return", .maybe [.terminal .sameLine, .rule .sequence], semicolon]),
    .node "throw_statement" (.all [word "throw", .rule .sequence, semicolon]),
    jump "break_statement" "break", jump "continue_statement" "continue",
    .node "debugger_statement" (.seq (word "debugger") semicolon),
    .node "with_statement" (.all [word "with", condition, body]),
    .node "labeled_statement"
      (.all [.field "label" (label (operandWords ++ statementWords)), mark ":", body]),
    .node "expression_statement" (.all [.notAhead v.notExpression, .rule .sequence, semicolon])]

/-! ## Expressions -/

/-- The operators that assign. -/
def assigning : ScriptPhrase :=
  oneOf ["=", "+=", "-=", "*=", "/=", "%=", "**=", "<<=", ">>=", ">>>=", "&=", "|=", "^=", "&&=",
    "||=", "??="]

/-- The operators between two operands. -/
def binaryOperator : ScriptPhrase :=
  .any (["||", "&&", "??", "===", "!==", "==", "!=", "<=", ">=", "<<", ">>>", ">>", "<", ">", "|",
    "^", "&", "+", "-", "**", "*", "/", "%"].map mark ++ [word "instanceof", word "in"])

/-- The operators in front of an operand. -/
def unaryOperator : ScriptPhrase :=
  .any (["!", "~", "++", "--", "+", "-"].map mark ++
    ["typeof", "void", "delete", "await"].map word)

/-- The body of an arrow function. -/
def arrowBody : ScriptPhrase :=
  .seq (mark "=>") (.field "body" (.any [.node "object" properties, .rule .block,
    .seq (.notAhead (mark "\x7b")) value]))

/-- A function written with an arrow. -/
def Variant.arrow (v : Variant) : ScriptPhrase :=
  .node "arrow_function" (.any [
    .all [.seq (word "async") (.terminal .sameLine),
      .any [.field "parameter" identifier, v.signature], arrowBody],
    .seq (.field "parameter" operandName) arrowBody,
    .seq v.signature arrowBody])

/-- An operand to which nothing can be assigned without an access. -/
def Variant.fixedOperand (v : Variant) : ScriptPhrase :=
  .any [
    .node "meta_property" (.all [word "import", mark ".", word "meta"]),
    .seq (word "import") (.ahead (mark "(")),
    .rule .constructed,
    v.functionExpression,
    .seq (.ahead (.any [word "class", mark "@"])) v.classExpression,
    word "this", word "super", word "null", word "true", word "false", word "undefined",
    .terminal .number, quoted, .rule .template, .terminal .pattern,
    .seq (.terminal .privateName) (.ahead (word "in")),
    if v.markup then .rule (.markup false) else never]

/-- An operand to which something can be assigned. Braces and square brackets that give values to
missing parts are a destructuring, of which something has to be taken apart. -/
def target : ScriptPhrase :=
  .any [
    operandName,
    condition,
    .node "array" (squares (gappedList (.seq (.opt (mark "...")) value))),
    .node "object" (braces (gappedList (.rule .property))),
    .seq (.rule .destructuring) (.ahead (.any [mark "=", word "of", word "in"]))]

/-- What is assigned to the operand in front. -/
def assigned : ScriptPhrase :=
  .extend "assignment_expression" "left" (.seq assigning (.field "right" value))

/-- A property, a subscript, or another access. -/
def Variant.access (v : Variant) : ScriptPhrase :=
  let property : ScriptPhrase := .any [propertyName, .terminal .privateName]
  let subscript : ScriptPhrase := squares (.field "index" (.rule .sequence))
  .any [
    propertyAccess property,
    .extend "subscript_expression" "object" (.seq (mark "?.") subscript),
    .extend "member_expression" "object" (.seq (mark "?.") (.field "property" property)),
    .extend "subscript_expression" "object" subscript,
    v.typed (.extend "non_null_expression" "object" (.seq (.terminal .sameLine) (mark "!")))]

/-- A call. -/
def Variant.call (v : Variant) : ScriptPhrase :=
  let arguments : ScriptPhrase := .field "arguments" (.rule .arguments)
  let template : ScriptPhrase := .field "arguments" (.rule .template)
  let typeArguments : ScriptPhrase := .field "type_arguments" (.rule .typeArguments)
  .extend "call_expression" "function" (.any [
    .seq (mark "?.") (.any [.seq (v.typedOpt [typeArguments]) arguments, template]),
    arguments,
    template,
    v.typed (.seq typeArguments (.any [arguments, template]))])

/-- A call of a constructor; the arguments are optional. -/
def Variant.construction (v : Variant) : ScriptPhrase :=
  .any [
    .node "meta_property" (.all [word "new", mark ".", word "target"]),
    .node "new_expression" (.all [word "new", .any [.rule .primary, target], .many (.any [
        propertyAccess (.any [propertyName, .terminal .privateName]),
        .extend "subscript_expression" "object" (squares (.field "index" (.rule .sequence))),
        v.typed (.extend "non_null_expression" "object" (.seq (.terminal .sameLine) (mark "!")))]),
      v.typedOpt [.field "type_arguments" (.rule .typeArguments)],
      .opt (.field "arguments" (.rule .arguments))])]

/-- Elements of markup, their attributes and what stands between them. The flag tells that the
element stands between others, where blank space after it is text. -/
def Variant.markupElement (v : Variant) (inner : Bool) : ScriptPhrase :=
  let close : ScriptPhrase := .terminal (if inner then .bareMark ">" else .shortMark ">")
  let dotted (kind : String) : ScriptPhrase :=
    .sepBy (.any [mark ".", mark ":"]) (.terminal (.markupName kind))
  let tag : ScriptPhrase := dotted "identifier"
  let embedded : ScriptPhrase := .seq (.opt (mark "...")) (.rule .sequence)
  let setting : ScriptPhrase := .any [
    .node "jsx_expression" (braces embedded),
    .node "jsx_attribute" (.seq (dotted "property_identifier")
      (.maybe [mark "=", .any [.terminal .markupValue, .node "jsx_expression" (braces embedded),
        .rule (.markup false)]]))]
  let children : ScriptPhrase := .many (.any [.terminal .markupText, .terminal .reference,
    .rule (.markup true),
    .node "jsx_expression" (.all [mark "\x7b", .opt embedded, .terminal (.bareMark "\x7d")])])
  .node "jsx_element" (.seq (mark "<") (.any [
    .all [.terminal .markupBegin, children, .terminal .markupEnd, close],
    .all [tag, v.typedOpt [.rule .typeArguments], .many setting, .any [
      .seq (mark "/") close,
      .all [.terminal .markupBegin, children, .terminal .markupEnd, tag, close]]]]))

/-! ## Types -/

/-- The names of the built-in types, which are no identifiers. -/
def builtInType : ScriptPhrase :=
  .any (["any", "number", "boolean", "string", "symbol", "void", "unknown", "never", "object",
    "undefined", "null", "true", "false", "this", "const"].map word)

/-- A call of `import` in a type. -/
def typeImport : ScriptPhrase :=
  .node "call_expression"
    (.seq (.field "function" (word "import")) (.field "arguments" (.rule .arguments)))

/-- A type that asks about a value. -/
def typeQuery : ScriptPhrase :=
  .node "type_query" (.all [word "typeof",
    .any [typeImport, word "this", .terminal (.name "identifier" ["import", "this"])],
    .many (.any [propertyAccess (.any [propertyName, .terminal .privateName]),
      .extend "subscript_expression" "object" (squares (.field "index" (.rule .type)))]),
    .opt (.rule .typeArguments)])

/-- The type of a function or a constructor with the given result. -/
def functionType (result : ScriptPhrase) : ScriptPhrase :=
  .node "function_type" (.all [.opt (word "abstract"), .opt (word "new"),
    .opt (.rule .typeParameters), .rule .parameters, mark "=>", .field "return_type" result])

/-- One element of a tuple type, perhaps with a name. -/
def tupleElement : ScriptPhrase :=
  .seq (.opt (mark "...")) (.any [
    .all [identifier, .opt (mark "?"), mark ":", .rule .type],
    .seq (.rule .type) (.opt (mark "?"))])

/-- The word before the parameter of a mapped type and the sign before its modifier. -/
def mappedMember : ScriptPhrase :=
  let sign : ScriptPhrase := .opt (oneOf ["+", "-"])
  .all [.maybe [sign, word "readonly"],
    squares (.all [typeTitle, word "in", .rule .type, .maybe [word "as", .rule .type]]),
    .maybe [sign, mark "?"], .maybe [mark ":", .rule .type]]

/-- An index signature. -/
def indexSignature : ScriptPhrase :=
  .all [.maybe [.opt (oneOf ["+", "-"]), word "readonly"],
    squares (.all [identifier, mark ":", .rule .type]), .maybe [mark ":", .rule .type]]

/-- A member of an object type or an interface, with its separator. -/
def objectTypeMember : ScriptPhrase :=
  .seq (.any [
      mappedMember,
      indexSignature,
      .seq (.opt (word "new")) (.all [.opt (.rule .typeParameters), .rule .parameters,
        .maybe [mark ":", .rule .type]]),
      .all [modifiers ["readonly", "get", "set"], .rule .key, .opt (mark "?"), .any [
        .all [.opt (.rule .typeParameters), .rule .parameters, .maybe [mark ":", .rule .type]],
        .maybe [mark ":", .rule .type]]]])
    (.any [mark ",", semicolon])

/-- A type without operators. -/
def primaryType : ScriptPhrase :=
  let arguments : ScriptPhrase := .field "type_arguments" (.rule .typeArguments)
  .any [
    typeQuery,
    builtInType,
    mark "*",
    .node "flow_maybe_type" (.seq (mark "?") (.rule (.simpleType false))),
    .all [typeImport, .many (propertyAccess typeTitle),
      .opt (.extend "generic_type" "name" arguments)],
    .all [typeName,
      .many (.extend "nested_type_identifier" "module"
        (.seq (mark ".") (.field "name" typeTitle))),
      .opt (.extend "generic_type" "name" (.seq (.terminal .sameLine) arguments))],
    .node "literal_type" (.any [quoted, .seq (.opt (mark "-")) (.terminal .number)]),
    .rule .typeTemplate,
    .node "parenthesized_type" (parens (.rule .type)),
    .node "tuple_type" (squares (commaList tupleElement)),
    .node "object_type" (braces (.many (.rule .typeMember)))]

/-- A type with the operators in front of it and the subscripts after it. The flag tells that the type
stands after `extends`, where a question mark never belongs to it. -/
def operatorType (bounded : Bool) : ScriptPhrase :=
  let bound : ScriptPhrase := .rule .extendedType
  .any [
    .node "infer_type" (.all [word "infer", typeTitle,
      .opt (if bounded then .seq (word "extends") bound
        else .all [word "extends", bound, .notAhead (mark "?")])]),
    .node "index_type_query" (.seq (word "keyof") (.rule (.simpleType bounded))),
    .node "readonly_type" (.seq (word "readonly") (.rule (.simpleType bounded))),
    .all [word "unique", .ahead (word "symbol"), .rule (.simpleType bounded)],
    .seq primaryType (.many (.extend "array_type" "element"
      (.seq (.terminal .sameLine) (squares (.opt (.rule .type))))))]

/-- Types between the operators of unions and intersections. -/
def joinedTypes (bounded : Bool) : ScriptPhrase :=
  let both : ScriptPhrase := .gather "intersection_type"
    (.seq (.opt (mark "&")) (.sepBy (mark "&") (.rule (.simpleType bounded))))
  .gather "union_type" (.seq (.opt (mark "|")) (.sepBy (mark "|") both))

/-- A type that tells something about a value, with the given type for it. -/
def predicateType (type : ScriptPhrase) : ScriptPhrase :=
  .any [
    .node "asserts" (.all [word "asserts", .terminal .sameLine, .any [word "this", identifier],
      .maybe [word "is", type]]),
    .node "type_predicate" (.all [
      .any [word "this", .terminal (.name "identifier" typeWords)], .terminal .sameLine, word "is",
      type])]

/-! ## The grammar -/

/-- The modifiers of a class member. -/
def Variant.memberModifiers (v : Variant) : List String :=
  ["static", "async", "get", "set"] ++
    if v.types then ["abstract", "accessor", "declare", "override", "private", "protected", "public",
      "readonly"]
    else []

/-- The phrase behind each rule. -/
def Variant.phrase (v : Variant) : Rule → ScriptPhrase
  | .file => .all [.opt (.terminal .interpreter), .many (.rule .statement), .terminal .finish]
  | .statement => v.statement
  | .block => .node "statement_block" (braces (.many (.rule .statement)))
  | .declaration =>
    .any [
      .seq (.rule .variables) semicolon,
      v.functionDeclaration,
      v.classDeclaration,
      v.typedDeclaration]
  | .variables => v.variables
  | .sequence => .gather "sequence_expression" (.sepBy (mark ",") value)
  | .assignment =>
    .any [
      v.arrow,
      .gather "yield_expression" (.seq (word "yield")
        (.maybe [.terminal .sameLine, .opt (mark "*"), value])),
      .rule .conditional]
  | .conditional =>
    .gather "binary_expression" (.all [.rule .unary,
      .many (.any [.seq binaryOperator (.rule .unary),
        v.typed (.all [.terminal .sameLine, word "as", .any [word "const", .rule .type]]),
        v.typed (.all [.terminal .sameLine, word "satisfies", .rule .type])]),
      .opt (.any [
        .all [mark "?", value, mark ":", value],
        v.typed (.all [mark "?", .ahead (mark "("), .rule .conditional, mark ":", value])])])
  | .unary =>
    .any [
      .gather "unary_expression" (.all [.many unaryOperator, .rule .chain,
        .maybe [.terminal .sameLine, oneOf ["++", "--"]]]),
      if v.types && !v.markup then
        .node "type_assertion" (.all [.many unaryOperator, .rule .typeArguments, .rule .unary])
      else never]
  | .chain =>
    .any [.seq (.rule .primary) (.rule .suffixes), .seq target (.any [assigned, .rule .suffixes])]
  | .suffixes => .any [.seq (.some v.access) (.any [assigned, .rule .calls]), .rule .calls]
  | .calls => .maybe [.some v.call, .rule .suffixes]
  | .primary => v.fixedOperand
  | .constructed => v.construction
  | .classBody => .node "class_body" (braces (.many (.any [mark ";", .rule .member])))
  | .member =>
    .any [
      .node "class_static_block" (.seq (word "static") (.rule .block)),
      .all [.many decorator, modifiers v.memberModifiers, .opt (mark "*"),
        .any [v.typed (.seq indexSignature semicolon),
          .all [.rule .key, v.typedOpt [oneOf ["?", "!"]], .any [
            .seq v.signature v.body,
            .all [v.annotation, initializer, semicolon]]]]]]
  | .property =>
    .any [
      .node "spread_element" (.seq (mark "...") value),
      .all [modifiers ["async", "get", "set"], .opt (mark "*"), .rule .key,
        .any [.extend "pair" "key" (.seq (mark ":") (.field "value" value)),
          .seq v.signature (.rule .block)]],
      name "shorthand_property_identifier"]
  | .key =>
    .any [propertyName, .terminal .privateName, quoted, .terminal .number,
      .node "computed_property_name" (squares value)]
  | .binding => .any [operandName, .rule .destructuring]
  | .destructuring =>
    .any [
      .node "object_pattern" (braces (gappedList (.any [
        .node "rest_pattern" (.seq (mark "...") (.rule .binding)),
        .node "pair_pattern" (.all [.field "key" (.rule .key), mark ":",
          .field "value" (.rule .binding), initializer]),
        .seq (name "shorthand_property_identifier_pattern") (.opt
          (.extend "object_assignment_pattern" "left"
            (.seq (mark "=") (.field "right" value))))]))),
      .node "array_pattern" (squares (gappedList
        (.all [.opt (mark "..."), .rule .binding, initializer])))]
  | .parameters =>
    .node "formal_parameters" (parens (commaList (.all [.many decorator,
      if v.types then modifiers ["public", "private", "protected", "override", "readonly"]
      else .nothing,
      .opt (mark "..."), .any [.rule .binding, v.typed (word "this")], v.typedOpt [mark "?"],
      v.annotation, initializer])))
  | .arguments =>
    .node "arguments" (parens (gappedList (.any [
      .node "spread_element" (.seq (mark "...") value), value])))
  | .template =>
    .node "template_string" (.all [.terminal .templateOpen,
      .many (.any [.terminal .templateText,
        .node "template_substitution"
          (.all [mark "$\x7b", .rule .sequence, .terminal (.bareMark "\x7d")])]),
      .terminal .templateClose])
  | .markup inner => v.markupElement inner
  | .typeTemplate =>
    .node "template_literal_type" (.all [.terminal .templateOpen,
      .many (.any [.terminal .templateText,
        .node "template_type"
          (.all [mark "$\x7b", .rule .plainType, .terminal (.bareMark "\x7d")])]),
      .terminal .templateClose])
  | .type =>
    .any [functionType (.rule .type), predicateType (.rule .type), .rule .plainType]
  | .plainType =>
    .gather "conditional_type" (.seq (joinedTypes false) (.maybe [.terminal .sameLine,
      word "extends", .rule .extendedType, mark "?", .rule .type, mark ":", .rule .type]))
  | .extendedType =>
    .any [functionType (.rule .extendedType), predicateType (.rule .extendedType),
      joinedTypes true]
  | .simpleType bounded => operatorType bounded
  | .typeArguments =>
    .node "type_arguments" (.all [mark "<", .sepBy (mark ",") (.rule .type),
      .terminal (.shortMark ">")])
  | .typeParameters =>
    .node "type_parameters" (.all [mark "<", commaList (.all [
        modifiers ["const", "in", "out"], typeTitle, .maybe [word "extends", .rule .type],
        .maybe [mark "=", .rule .type]]),
      .terminal (.shortMark ">")])
  | .typeMember => objectTypeMember

/-- The grammar of a variant. -/
def Variant.grammar (v : Variant) : Grammar Terminal Rule := ⟨read, v.phrase⟩

/-- The syntax tree of a source text. -/
def Variant.parse (v : Variant) (text : String) : Tree :=
  v.grammar.parse "program" .file (Cursor.ofText text.toList blank)

end ModuleAtlas.EcmaScript
