import ModuleAtlas.Lexicon.Go
import ModuleAtlas.Syntax.Grammar

/-!
# The grammar of Go

Nodes and fields have the names that the extraction knows; what it does not look into may be a flat
run of tokens. The grammar follows the language closely enough to refuse what is no Go, and is lenient
where a line end inside brackets could or could not end a statement.

Expressions carry a flag: in the header of a statement a name in front of a brace is not the type of
a composite literal, because the brace opens the body of the statement.
-/

namespace ModuleAtlas.Go

open Syntax

/-- The rules of the grammar. -/
inductive Rule where
  | file
  | topLevel
  | statements
  | statement
  | block
  | simple (composite : Bool)
  | expression (composite : Bool)
  | unary (composite : Bool)
  | operand (composite : Bool)
  | suffix (composite : Bool)
  | element
  | literalValue
  | typeLiteral
  | type
  | typeParameters
  | parameters
  | constSpec
  | varSpec
  | typeSpec
  deriving DecidableEq, Repr

/-- A phrase of the grammar. -/
abbrev GoPhrase := Phrase Terminal Rule

/-- A keyword. -/
def word (text : String) : GoPhrase := .terminal (.word text)

/-- A punctuation mark. -/
def mark (text : String) : GoPhrase := .terminal (.mark text)

/-- An identifier where no other word could stand. -/
def name (kind : String) : GoPhrase := .terminal (.name kind [])

/-- An identifier of a variable, a constant or a function. -/
def identifier : GoPhrase := name "identifier"

/-- The name of a type where another type could stand. -/
def typeName : GoPhrase := .terminal (.name "type_identifier" typeWords)

/-- The name of a label where a statement could stand. -/
def label : GoPhrase := .terminal (.name "label_name" (statementWords ++ operandWords))

/-- A string literal. -/
def quoted : GoPhrase := .any [.terminal .string, .terminal .rawString]

/-- A phrase in brackets. -/
def bracketed (opening closing : String) (body : GoPhrase) : GoPhrase :=
  .all [mark opening, body, mark closing]

/-- A phrase in braces. -/
def braced (body : GoPhrase) : GoPhrase := bracketed "\x7b" "\x7d" body

/-- Statements, specs or members, each with its end. -/
def terminated (body : GoPhrase) : GoPhrase :=
  .many (.any [mark ";", .seq body (.terminal .terminator)])

/-- A group of specs in parentheses. -/
def group (spec : GoPhrase) : GoPhrase := bracketed "(" ")" (terminated spec)

/-- An expression wherever any composite literal may stand. -/
def value : GoPhrase := .rule (.expression true)

/-- Expressions with commas between them. -/
def values (composite : Bool) : GoPhrase :=
  .node "expression_list" (.sepBy (mark ",") (.rule (.expression composite)))

/-- An expression or a type, where both may stand. -/
def valueOrType : GoPhrase := .any [value, .rule .type]

/-- Type arguments. -/
def typeArguments : GoPhrase := .node "type_arguments"
  (bracketed "[" "]" (.seq (.sepBy (mark ",") (.rule .type)) (.opt (mark ","))))

/-- A type given by its name. -/
def namedType : GoPhrase :=
  .seq (.any [
      .node "qualified_type" (.all [
        .field "package" (.terminal (.name "package_identifier" typeWords)), mark ".",
        .field "name" (name "type_identifier")]),
      typeName])
    (.opt (.extend "generic_type" "type" (.field "type_arguments" typeArguments)))

/-- Types between vertical bars, as constraints are written. -/
def constraint : GoPhrase := .gather "type_constraint" (.sepBy (mark "|") (.rule .type))

/-- One parameter: names are optional, and a parameter without one is a type. -/
def parameter : GoPhrase :=
  .node "parameter_declaration" (.any [
    .all [.field "name" (.terminal (.name "identifier" typeWords)), .opt (mark "..."),
      .field "type" (.rule .type)],
    .all [.opt (mark "..."), .field "type" (.rule .type)]])

/-- The result of a function, which no line end separates from the parameters. -/
def result : GoPhrase :=
  .maybe [.terminal .continued, .field "result" (.any [.rule .parameters, .rule .type])]

/-- The parameters, the result and perhaps the body of a function. -/
def signature (body : GoPhrase) : GoPhrase :=
  .all [.field "parameters" (.rule .parameters), result, body]

/-- A field of a structure: names and a type, or an embedded type; a tag may follow. A line end after
square brackets ends an embedded type with arguments, unless it cannot be one. -/
def field : GoPhrase :=
  let brokenArray : GoPhrase :=
    .all [mark "[", .opt value, mark "]", .notAhead (.terminal .joined)]
  let names : GoPhrase :=
    .seq (.sepBy (mark ",") (.field "name" (name "field_identifier"))) (.terminal .joined)
  let type : GoPhrase := .field "type" (.rule .type)
  let tag : GoPhrase := .opt (.field "tag" quoted)
  .node "field_declaration" (.any [
    .all [names, .notAhead brokenArray, type, tag],
    .all [.opt (mark "*"), .field "type" namedType, tag, .ahead (.terminal .terminator)],
    .all [names, type, tag]])

/-- A method or a constraint of an interface. -/
def interfaceElement : GoPhrase :=
  .any [
    .node "method_elem" (.all [.field "name" (.terminal (.name "field_identifier" typeWords)),
      signature .nothing]),
    .node "type_elem" constraint]

/-- One imported path with the name it is bound to. -/
def importSpec : GoPhrase :=
  .node "import_spec" (.seq
    (.opt (.field "name" (.any [.terminal .dot, .terminal .blankName, name "package_identifier"])))
    (.field "path" quoted))

/-- The import declaration. -/
def imports : GoPhrase :=
  .node "import_declaration" (.seq (word "import")
    (.any [.node "import_spec_list" (group importSpec), importSpec]))

/-- The package clause. -/
def package : GoPhrase :=
  .node "package_clause" (.seq (word "package") (name "package_identifier"))

/-- A function with a name; the body is optional. -/
def function : GoPhrase :=
  .node "function_declaration" (.all [word "func", .field "name" identifier,
    .opt (.field "type_parameters" (.rule .typeParameters)),
    signature (.opt (.field "body" (.rule .block)))])

/-- A method; its receiver stands in parentheses before the name. -/
def method : GoPhrase :=
  .node "method_declaration" (.all [word "func", .field "receiver" (.rule .parameters),
    .field "name" (name "field_identifier"), signature (.opt (.field "body" (.rule .block)))])

/-- Declarations of constants, variables and types. -/
def declaration : GoPhrase :=
  .any [
    .node "const_declaration" (.seq (word "const")
      (.any [group (.rule .constSpec), .rule .constSpec])),
    .node "var_declaration" (.seq (word "var")
      (.any [.node "var_spec_list" (group (.rule .varSpec)), .rule .varSpec])),
    .node "type_declaration" (.seq (word "type")
      (.any [group (.rule .typeSpec), .rule .typeSpec]))]

/-- The operators that assign. -/
def assignment : GoPhrase :=
  .any (["=", ":=", "+=", "-=", "*=", "/=", "%=", "&=", "|=", "^=", "<<=", ">>=", "&^="].map mark)

/-- The operators between two operands. -/
def binaryOperator : GoPhrase :=
  .any (["||", "&&", "==", "!=", "<=", ">=", "<", ">", "+", "-", "|", "^", "*", "/", "%", "<<",
    ">>", "&^", "&"].map mark)

/-- The operators in front of an operand. -/
def unaryOperator : GoPhrase := .any (["+", "-", "!", "^", "*", "&", "<-"].map mark)

/-- What makes a simple statement of a first expression: more expressions, and then a step, an
assignment or a send. -/
def simpleRest (composite : Bool) : GoPhrase :=
  .seq (.many (.seq (mark ",") (.rule (.expression composite)))) (.opt (.any [
    .seq (.terminal .continued) (.any [mark "++", mark "--"]),
    .seq assignment (values composite),
    .seq (mark "<-") (.rule (.expression composite))]))

/-- An expression in the header of a statement. -/
def condition : GoPhrase := .rule (.expression false)

/-- A simple statement in the header of a statement. -/
def step : GoPhrase := .rule (.simple false)

/-- What stands between `if` and the body: a condition, perhaps after a simple statement. -/
def conditionHeader : GoPhrase :=
  .any [
    .seq condition (.maybe [simpleRest false, mark ";", condition]),
    .seq (mark ";") condition]

/-- What stands between `switch` and the body. -/
def switchHeader : GoPhrase :=
  .seq (.opt step) (.maybe [mark ";", .opt step])

/-- What stands between `for` and the body. -/
def loopHeader : GoPhrase :=
  let clauses : GoPhrase := .all [mark ";", .opt condition, mark ";", .opt step]
  .any [
    .seq (word "range") condition,
    .all [.notAhead (word "range"), condition, .opt (.any [
      .all [.many (.seq (mark ",") condition), .any [mark ":=", mark "="], word "range", condition],
      .seq (simpleRest false) clauses])],
    .opt clauses]

/-- What stands in the square brackets after an operand: an index, bounds, or type arguments. -/
def subscript : GoPhrase :=
  let bounds : GoPhrase := .all [mark ":", .opt value, .maybe [mark ":", value]]
  .any [bounds,
    .seq valueOrType (.any [bounds, .seq (.many (.seq (mark ",") valueOrType)) (.opt (mark ","))])]

/-- The cases of `switch` and `select`. -/
def cases (kind : String) (guard : GoPhrase) : GoPhrase :=
  let body : GoPhrase := .seq (mark ":") (.rule .statements)
  braced (.many (.any [.node kind (.all [word "case", guard, body]),
    .node "default_case" (.seq (word "default") body)]))

/-- A jump with an optional label on the same line. -/
def jump (kind keyword : String) : GoPhrase :=
  .node kind (.seq (word keyword) (.maybe [.terminal .joined, label]))

/-- The phrase behind each rule. -/
def phrase : Rule → GoPhrase
  | .file => .seq (terminated (.rule .topLevel)) (.terminal .finish)
  | .topLevel => .any [package, imports, function, method, .rule .statement]
  | .statements => terminated (.rule .statement)
  | .block => .node "block" (braced (.rule .statements))
  | .statement =>
    .any [declaration,
      .node "labeled_statement" (.all [.field "label" label, mark ":", .opt (.rule .statement)]),
      .rule .block,
      .node "if_statement" (.all [word "if", conditionHeader, .field "consequence" (.rule .block),
        .maybe [.terminal .joined, word "else", .ahead (.any [word "if", mark "\x7b"]),
          .field "alternative" (.rule .statement)]]),
      .node "for_statement" (.all [word "for", loopHeader, .field "body" (.rule .block)]),
      .node "expression_switch_statement" (.all [word "switch", switchHeader,
        cases "expression_case" (.sepBy (mark ",") valueOrType)]),
      .node "select_statement" (.seq (word "select")
        (cases "communication_case" (.rule (.simple true)))),
      .node "go_statement" (.seq (word "go") value),
      .node "defer_statement" (.seq (word "defer") value),
      .node "return_statement" (.seq (word "return") (.maybe [.terminal .joined, values true])),
      jump "break_statement" "break", jump "continue_statement" "continue",
      jump "goto_statement" "goto", .node "fallthrough_statement" (word "fallthrough"),
      .node "expression_statement"
        (.seq (.notAhead (.any (statementWords.map word))) (.rule (.simple true)))]
  | .simple composite => .seq (.rule (.expression composite)) (simpleRest composite)
  | .expression composite =>
    .gather "binary_expression" (.seq (.rule (.unary composite))
      (.many (.all [.terminal .continued, binaryOperator, .rule (.unary composite)])))
  | .unary composite =>
    .gather "unary_expression"
      (.all [.many unaryOperator, .rule (.operand composite), .many (.rule (.suffix composite))])
  | .operand _ =>
    .any ([.terminal (.name "identifier" operandWords)] ++
      constants.map (fun text => .terminal (.constant text)) ++ [
      .terminal .number, .terminal .rune, quoted,
      .node "parenthesized_expression" (bracketed "(" ")" valueOrType),
      .node "func_literal" (.seq (word "func") (signature (.field "body" (.rule .block)))),
      .node "composite_literal" (.seq
        (.field "type" (.node "implicit_length_array_type"
          (.all [mark "[", mark "...", mark "]", .field "element" (.rule .type)])))
        (.field "body" (.rule .literalValue))),
      .seq (.rule .typeLiteral) (.any [
        .extend "composite_literal" "type" (.field "body" (.rule .literalValue)),
        .ahead (mark "(")])])
  | .suffix composite =>
    .seq (.terminal .continued) (.any ([
      .extend "selector_expression" "operand"
        (.seq (mark ".") (.field "field" (name "field_identifier"))),
      .extend "type_assertion_expression" "operand"
        (.seq (mark ".") (bracketed "(" ")" (.any [word "type", .rule .type]))),
      .extend "call_expression" "function" (.field "arguments" (.node "argument_list"
        (bracketed "(" ")" (.listOf (mark ",") (.seq valueOrType (.opt (mark "..."))))))),
      .extend "index_expression" "operand" (bracketed "[" "]" subscript)] ++
      if composite then
        [.extend "composite_literal" "type" (.field "body" (.rule .literalValue))]
      else []))
  | .element => .any [.rule .literalValue, value]
  | .literalValue =>
    .node "literal_value" (braced (.listOf (mark ",")
      (.seq (.rule .element) (.maybe [mark ":", .rule .element]))))
  | .typeLiteral =>
    .any [
      .node "array_type" (.all [mark "[", .any [mark "]", .seq value (mark "]")],
        .field "element" (.rule .type)]),
      .node "map_type" (.all [word "map", bracketed "[" "]" (.field "key" (.rule .type)),
        .field "value" (.rule .type)]),
      .node "channel_type" (.any [.all [word "chan", .opt (mark "<-"), .rule .type],
        .all [mark "<-", word "chan", .rule .type]]),
      .node "struct_type" (.seq (word "struct")
        (.node "field_declaration_list" (braced (terminated field)))),
      .node "interface_type" (.seq (word "interface") (braced (terminated interfaceElement)))]
  | .type =>
    .any [namedType, .node "pointer_type" (.seq (mark "*") (.rule .type)), .rule .typeLiteral,
      .node "function_type" (.seq (word "func") (signature .nothing)),
      .node "parenthesized_type" (bracketed "(" ")" (.rule .type)),
      .node "negated_type" (.seq (mark "~") (.rule .type))]
  | .typeParameters =>
    .node "type_parameter_list" (bracketed "[" "]" (.seq
      (.sepBy (mark ",") (.node "type_parameter_declaration"
        (.seq (.sepBy (mark ",") (.field "name" identifier)) (.field "type" constraint))))
      (.opt (mark ","))))
  | .parameters => .node "parameter_list" (bracketed "(" ")" (.listOf (mark ",") parameter))
  | .constSpec =>
    .node "const_spec" (.seq (.field "name" (.sepBy (mark ",") identifier))
      (.maybe [.terminal .joined, .opt (.field "type" (.rule .type)), mark "=",
        .field "value" (values true)]))
  | .varSpec =>
    .node "var_spec" (.seq (.sepBy (mark ",") (.field "name" identifier)) (.any [
      .seq (mark "=") (.field "value" (values true)),
      .seq (.field "type" (.rule .type)) (.maybe [mark "=", .field "value" (values true)])]))
  | .typeSpec =>
    let parameters : GoPhrase := .field "type_parameters" (.rule .typeParameters)
    .any [
      .node "type_alias" (.all [.field "name" (name "type_identifier"), .opt parameters, mark "=",
        .field "type" (.rule .type)]),
      .node "type_spec" (.seq (.field "name" (name "type_identifier")) (.any [
        .seq parameters (.field "type" (.rule .type)), .field "type" (.rule .type)]))]

/-- The grammar of Go. -/
def grammar : Grammar Terminal Rule := ⟨read, phrase⟩

/-- The syntax tree of a source text. -/
def parse (text : String) : Tree :=
  grammar.parse "source_file" .file (Cursor.ofText text.toList blank)

end ModuleAtlas.Go
