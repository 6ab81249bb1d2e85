import ModuleAtlas.Lexicon.Python
import ModuleAtlas.Syntax.Grammar

/-!
# The grammar of Python

Nodes and fields have the names that the extraction knows; what it does not look into may be a flat
run of tokens. Layout is read leniently: a block may be missing after its colon, and a line may be
indented deeper than its block without opening one.
-/

namespace ModuleAtlas.Python

open Syntax

/-- The rules of the grammar. -/
inductive Rule where
  | file
  | statement
  | simpleLine
  | simple
  | suite
  | definition
  | assigned
  | target
  | expression
  | condition
  | term
  | operand
  | head
  | primary
  | element
  | parameters (annotated : Bool)
  | parameter (annotated : Bool)
  | unpacked
  | pattern
  | closedPattern
  | formatted (quoting : Quoting)
  | field (quoting : Quoting)
  deriving DecidableEq, Repr

/-- A phrase of the grammar. -/
abbrev PythonPhrase := Phrase Terminal Rule

/-- A keyword. -/
def word (text : String) : PythonPhrase := .terminal (.word text)

/-- A punctuation mark. -/
def mark (text : String) : PythonPhrase := .terminal (.mark text)

/-- An identifier where no other word could stand. -/
def identifier : PythonPhrase := .terminal (.name [])

/-- An identifier where any operand could stand. -/
def operandName : PythonPhrase := .terminal (.name operandWords)

/-- One of several keywords. -/
def anyWord (texts : List String) : PythonPhrase := .any (texts.map word)

/-- A phrase in brackets, under a node. -/
def bracketed (kind opening closing : String) (body : PythonPhrase) : PythonPhrase :=
  .node kind (.all [mark opening, body, mark closing])

/-- An expression. -/
def value : PythonPhrase := .rule .expression

/-- Elements with commas between them and perhaps one at the end. -/
def values : PythonPhrase := .seq (.sepBy (mark ",") (.rule .element)) (.opt (mark ","))

/-- Names with points between them, the first of which is none of the words in `taken`. -/
def dottedName (taken : List String) : PythonPhrase :=
  .node "dotted_name"
    (.seq (.terminal (.name taken)) (.many (.seq (.terminal .point) identifier)))

/-- An imported thing, perhaps bound to another name. -/
def importedThing : PythonPhrase :=
  .any [
    .node "aliased_import" (.all [.field "name" (dottedName []), word "as",
      .field "alias" identifier]),
    dottedName []]

/-- The imported things of a statement. -/
def importedThings : PythonPhrase :=
  .seq (.sepBy (mark ",") (.field "name" importedThing)) (.opt (mark ","))

/-- The imported things of a from-import, perhaps in parentheses. -/
def importedNames : PythonPhrase :=
  .any [.all [mark "(", importedThings, mark ")"], importedThings]

/-- The module of a from-import: points for the enclosing packages and a dotted name. -/
def importedModule : PythonPhrase :=
  .any [
    .node "relative_import" (.seq (.node "import_prefix" (.some (.terminal .point)))
      (.opt (dottedName ["import"]))),
    dottedName ["__future__"]]

/-- The three forms of import statements. -/
def importStatement : PythonPhrase :=
  .any [
    .node "import_statement" (.seq (word "import") importedThings),
    .node "future_import_statement" (.all [word "from", word "__future__", word "import",
      importedNames]),
    .node "import_from_statement" (.all [word "from", .field "module_name" importedModule,
      word "import", .any [.terminal .wildcard, importedNames]])]

/-- A string or several in a row. -/
def text : PythonPhrase :=
  .gather "concatenated_string"
    (.some (.any (.terminal .string :: quotings.map (fun q => .rule (.formatted q)))))

/-- The start of an access or a call. -/
def suffixStart : PythonPhrase := .any [.terminal .point, mark "(", mark "["]

/-- What an assignment or a loop binds: one target, or several under a node. -/
def targets : PythonPhrase :=
  .gather "pattern_list" (.seq (.sepBy (mark ",") (.rule .target)) (.opt (mark ",")))

/-- The operators that assign to what is there already. -/
def augmenting : PythonPhrase :=
  .any (["+=", "-=", "*=", "/=", "//=", "%=", "**=", ">>=", "<<=", "&=", "^=", "|=", "@="].map mark)

/-- A yield expression. -/
def yielding : PythonPhrase :=
  .node "yield" (.seq (word "yield")
    (.any [.seq (word "from") value, .opt (.seq (.notAhead (word "from")) values)]))

/-- Values or a yield expression. -/
def results : PythonPhrase := .any [yielding, .seq (.notAhead (word "yield")) values]

/-- What follows the targets of an assignment: a type, a value, or both. -/
def assignment : PythonPhrase :=
  let assigned : PythonPhrase := .field "right" (.rule .assigned)
  .any [.seq (mark "=") assigned,
    .all [mark ":", .field "type" value, .maybe [mark "=", assigned]]]

/-- Targets with what is assigned to them. -/
def assigning : PythonPhrase :=
  .seq targets (.any [
    .extend "assignment" "left" assignment,
    .extend "augmented_assignment" "left" (.seq augmenting (.field "right" (.rule .assigned)))])

/-- Assignments, annotations and statements that are only an expression. -/
def expressionStatement : PythonPhrase :=
  .node "expression_statement" (.any [assigning, results])

/-- The operators between two operands. -/
def binaryOperator : PythonPhrase :=
  .any ([word "in", .seq (word "not") (word "in"),
      .seq (word "is") (.opt (word "not"))] ++
    ["==", "!=", "<=", ">=", "<>", "<<", ">>", "<", ">", "|", "^", "&", "+", "-", "**", "*", "//",
      "/", "%", "@"].map mark)

/-- What an operand may start with, operators in front of it included. -/
def operandStart : PythonPhrase :=
  .any ([.terminal (.name operatorWords), .terminal .number, .terminal .string] ++
    quotings.map (fun q => .terminal (.formatOpen q)) ++
    ["(", "[", "\x7b", "...", "+", "-", "~"].map mark)

/-- The operators in front of an operand. The word `await` is a name where no operand follows. -/
def unaryOperator : PythonPhrase :=
  .any [mark "+", mark "-", mark "~", .seq (word "await") (.ahead operandStart)]

/-- The clauses of a comprehension. -/
def comprehension : PythonPhrase :=
  let source : PythonPhrase := .all [.opt (word "async"), word "for", targets, word "in",
    .sepBy (mark ",") (.rule .condition)]
  .seq source (.many (.any [source, .seq (word "if") (.rule .condition)]))

/-- Elements in brackets, or one element and the clauses that produce it. -/
def collection (element : PythonPhrase) : PythonPhrase :=
  .opt (.seq element (.any [comprehension,
    .seq (.many (.seq (mark ",") element)) (.opt (mark ","))]))

/-- What stands in braces: entries of a dictionary, elements of a set, or what produces them. -/
def dictionaryOrSet : PythonPhrase :=
  let entry : PythonPhrase := .any [.seq (mark "**") value, .all [value, mark ":", value]]
  let entries : PythonPhrase := .seq (.many (.seq (mark ",") entry)) (.opt (mark ","))
  .any [
    .all [mark "**", value, entries],
    .seq (.rule .element) (.any [
      .all [mark ":", value, .any [comprehension, entries]],
      comprehension,
      .seq (.many (.seq (mark ",") (.rule .element))) (.opt (mark ","))]),
    .opt (mark ",")]

/-- An argument of a call. -/
def argument : PythonPhrase :=
  .any [.node "dictionary_splat" (.seq (mark "**") value),
    .node "keyword_argument" (.all [.field "name" operandName, mark "=", .field "value" value]),
    .rule .element]

/-- The arguments of a call or of a class. -/
def arguments : PythonPhrase :=
  bracketed "argument_list" "(" ")" (.any [mark ",", collection argument])

/-- A part of a subscript: an element or a slice. -/
def subscript : PythonPhrase :=
  let bounds : PythonPhrase := .all [mark ":", .opt value, .maybe [mark ":", .opt value]]
  .any [bounds, .seq (.rule .element) (.opt bounds)]

/-- An access to an attribute or to items. -/
def access : PythonPhrase :=
  .any [
    .extend "attribute" "object" (.seq (mark ".") (.field "attribute" identifier)),
    .extend "subscript" "value" (.all [mark "[", .sepBy (mark ",") subscript, .opt (mark ","),
      mark "]"])]

/-- A call. -/
def call : PythonPhrase := .extend "call" "function" (.field "arguments" arguments)

/-- Type parameters in square brackets. -/
def typeParameters : PythonPhrase := bracketed "type_parameter" "[" "]" (.listOf (mark ",")
  (.all [.any [mark "**", mark "*", .nothing], value, .maybe [mark ":", value],
    .maybe [mark "=", value]]))

/-- The decorators in front of a definition. -/
def decorators : PythonPhrase :=
  .some (.node "decorator" (.all [mark "@", value, .terminal .newline, .terminal .level]))

/-- A clause of a compound statement, at the indentation of the statement. -/
def clause (kind : String) (head : PythonPhrase) : PythonPhrase :=
  .node kind (.all [.terminal .level, head, mark ":", .rule .suite])

/-- A clause that begins with one of `words` and may be missing. -/
def optionalClause (kind : String) (words : List String) (head : PythonPhrase) : PythonPhrase :=
  .any [clause kind head, .notAhead (.seq (.terminal .level) (anyWord words))]

/-- The clause that follows a loop. -/
def elseClause : PythonPhrase := optionalClause "else_clause" ["else"] (word "else")

/-- What an exception clause catches. -/
def caught : PythonPhrase :=
  .all [word "except", .opt (mark "*"), .maybe [value, .maybe [mark ",", value]]]

/-- The match statement; without a block of cases it is no match statement. -/
def matching : PythonPhrase :=
  .node "match_statement" (.all [word "match", values, mark ":", .terminal .newline,
    .opt (.all [.terminal .indent,
      .many (clause "case_clause" (.all [word "case", .sepBy (mark ",") (.rule .pattern),
        .opt (mark ","), .maybe [word "if", value]])),
      .terminal .dedent])])

/-- The statements of an older form, whose words stand before values without parentheses. -/
def bareCall : PythonPhrase :=
  .any [
    .node "print_statement"
      (.all [word "print", mark ">>", value, .many (.seq (mark ",") value), .opt (mark ",")]),
    .node "print_statement" (.all [word "print",
      .ahead (.any ([.terminal (.name operatorWords), .terminal .number, .terminal .string] ++
        quotings.map (fun q => .terminal (.formatOpen q)) ++
        word "not" :: ["\x7b", "...", "~"].map mark)),
      values]),
    .node "exec_statement" (.all [word "exec",
      .any [.terminal .string, .terminal (.name operatorWords)], .maybe [word "in", values]])]

/-- The phrase behind each rule. -/
def phrase : Rule → PythonPhrase
  | .file => .seq (.many (.rule .statement)) (.terminal .finish)
  | .statement =>
    .any [
      .node "if_statement" (.all [word "if", value, mark ":", .rule .suite,
        .many (clause "elif_clause" (.seq (word "elif") value)),
        optionalClause "else_clause" ["elif", "else"] (word "else")]),
      .node "while_statement" (.all [word "while", value, mark ":", .rule .suite, elseClause]),
      .node "for_statement" (.all [.opt (word "async"), word "for", .field "left" targets,
        word "in", values, mark ":", .rule .suite, elseClause]),
      .node "try_statement" (.all [word "try", mark ":", .rule .suite, .any [
        .all [.some (clause "except_clause" caught),
          optionalClause "else_clause" ["except", "else"] (word "else"),
          optionalClause "finally_clause" ["finally"] (word "finally")],
        clause "finally_clause" (word "finally")]]),
      .node "with_statement" (.all [.opt (word "async"), word "with", .sepBy (mark ",") value,
        .opt (mark ","), mark ":", .rule .suite]),
      .rule .definition,
      .node "decorated_definition" (.seq decorators (.field "definition" (.rule .definition))),
      matching,
      .rule .simpleLine]
  | .definition =>
    .any [
      .node "function_definition" (.all [.opt (word "async"), word "def", .field "name" identifier,
        .opt typeParameters, bracketed "parameters" "(" ")" (.rule (.parameters true)),
        .maybe [mark "->", .field "return_type" value], mark ":", .field "body" (.rule .suite)]),
      .node "class_definition" (.all [word "class", .field "name" identifier, .opt typeParameters,
        .opt (.field "superclasses" arguments), mark ":", .field "body" (.rule .suite)])]
  | .suite =>
    .node "block" (.any [
      .all [.terminal .newline, .terminal .indent,
        .many (.seq (.terminal .level) (.rule .statement)), .terminal .dedent],
      .terminal .newline,
      .rule .simpleLine])
  | .simpleLine =>
    .all [.sepBy (mark ";") (.rule .simple), .opt (mark ";"), .terminal .newline]
  | .simple =>
    .any [importStatement,
      .node "return_statement" (.seq (word "return") (.opt values)),
      .node "delete_statement" (.seq (word "del") values),
      .node "raise_statement" (.all [word "raise", .opt (.seq (.notAhead (word "from")) values),
        .maybe [word "from", value]]),
      .node "assert_statement" (.seq (word "assert") (.sepBy (mark ",") value)),
      .node "pass_statement" (word "pass"), .node "break_statement" (word "break"),
      .node "continue_statement" (word "continue"),
      .node "global_statement" (.seq (word "global") (.sepBy (mark ",") identifier)),
      .node "nonlocal_statement" (.seq (word "nonlocal") (.sepBy (mark ",") identifier)),
      .node "type_alias_statement" (.all [word "type", value, mark "=", value]),
      bareCall,
      .seq (.notAhead (anyWord statementWords)) expressionStatement]
  | .assigned => .any [assigning, results]
  | .target =>
    .seq (.notAhead (anyWord ["in", "lambda", "not", "yield"])) (.any [
      .node "list_splat_pattern" (.seq (mark "*") (.rule .target)),
      .seq (.any [.seq (.notAhead text) operandName,
          bracketed "tuple_pattern" "(" ")" (.opt targets),
          bracketed "list_pattern" "[" "]" (.opt targets)])
        (.notAhead suffixStart),
      .all [.rule .head, .some (.seq (.many call) access), .notAhead suffixStart]])
  | .expression =>
    .gather "as_pattern" (.seq (.any [
        .node "lambda" (.all [word "lambda", .rule (.parameters false), mark ":", value]),
        .node "named_expression" (.all [.field "name" operandName, mark ":=", .field "value" value]),
        .gather "conditional_expression" (.seq (.rule .condition)
          (.maybe [word "if", .rule .condition, word "else", value]))])
      (.many (.seq (word "as") (.rule .condition))))
  | .condition => .gather "boolean_operator" (.sepBy (anyWord ["and", "or"]) (.rule .term))
  | .term =>
    .any [
      .node "lambda" (.all [word "lambda", .rule (.parameters false), mark ":", .rule .condition]),
      .node "not_operator" (.seq (word "not") (.rule .term)),
      .gather "binary_operator" (.all [.notAhead (anyWord ["lambda", "not"]), .rule .operand,
        .many (.seq binaryOperator (.rule .operand))])]
  | .operand => .gather "unary_operator" (.seq (.many unaryOperator) (.rule .primary))
  | .head =>
    .any [
      text,
      operandName, .terminal .number, mark "...", word "True", word "False", word "None",
      bracketed "parenthesized_expression" "(" ")" (.any [yielding,
        .seq (.notAhead (word "yield")) (collection (.rule .element))]),
      bracketed "list" "[" "]" (collection (.rule .element)),
      bracketed "dictionary" "\x7b" "\x7d" dictionaryOrSet]
  | .primary => .seq (.rule .head) (.many (.any [access, call]))
  | .element => .any [.node "list_splat" (.seq (mark "*") (.rule .condition)), value]
  | .parameters annotated => .listOf (mark ",") (.rule (.parameter annotated))
  | .parameter annotated =>
    let type : PythonPhrase :=
      if annotated then .maybe [mark ":", .field "type" (.rule .element)] else .nothing
    let default : PythonPhrase := .maybe [mark "=", .field "value" value]
    .any [mark "/",
      .gather "splat_pattern" (.all [.any [mark "**", mark "*"], identifier, type]),
      .gather "default_parameter" (.all [identifier, type, default]),
      mark "*",
      .gather "default_parameter" (.seq (.rule .unpacked) default)]
  | .unpacked =>
    bracketed "tuple_pattern" "(" ")" (.listOf (mark ",") (.any [identifier, .rule .unpacked]))
  | .pattern =>
    .gather "as_pattern"
      (.seq (.sepBy (mark "|") (.rule .closedPattern)) (.maybe [word "as", identifier]))
  | .closedPattern =>
    .gather "case_pattern" (.any [
      text,
      .seq (.any [mark "**", mark "*"]) (.any [word "_", identifier]),
      .seq (word "_") (.notAhead (.any [mark ".", mark "("])),
      .all [identifier, mark "=", .rule .pattern],
      .all [.terminal (.name ("if" :: operandWords)), .many (.seq (mark ".") identifier),
        .opt (.all [mark "(", .listOf (mark ",") (.rule .pattern), mark ")"])],
      .all [.opt (mark "-"), .terminal .number,
        .maybe [.any [mark "+", mark "-"], .terminal .number]],
      word "True", word "False", word "None",
      .all [mark "(", .listOf (mark ",") (.rule .pattern), mark ")"],
      .all [mark "[", .listOf (mark ",") (.rule .pattern), mark "]"],
      .all [mark "\x7b", .listOf (mark ",")
        (.seq (.rule .closedPattern) (.maybe [mark ":", .rule .pattern])), mark "\x7d"]])
  | .formatted q =>
    .node "string" (.all [.terminal (.formatOpen q),
      .many (.any [.terminal (.formatText q), .rule (.field q)]),
      .terminal (.formatClose q)])
  | .field q =>
    .node "interpolation" (.all [mark "\x7b", .field "expression" results, .opt (mark "="),
      .opt (.terminal .conversion),
      .maybe [.terminal (.bareMark ":"),
        .many (.any [.terminal (.formatSpec q), .rule (.field q)])],
      .terminal (.bareMark "\x7d")])

/-- The grammar of Python. -/
def grammar : Grammar Terminal Rule := ⟨read, phrase⟩

/-- The syntax tree of a source text. -/
def parse (text : String) : Tree := grammar.parse "module" .file (start text.toList)

end ModuleAtlas.Python
