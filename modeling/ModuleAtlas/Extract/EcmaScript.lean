import ModuleAtlas.Extraction

/-!
# Imports and exports of ECMAScript files

Imports are import statements, export statements with a source, and calls of `require` and `import`
whose first plain string argument names the module; they count wherever they stand. Exports are what
the export statements at the top level declare or list under its own name.
-/

namespace ModuleAtlas.EcmaScript

open Syntax

/-- The kinds of nodes that are identifiers. -/
def identifierKinds : List String :=
  ["identifier", "property_identifier", "type_identifier", "shorthand_property_identifier",
   "shorthand_property_identifier_pattern"]

/-! ## Imports -/

/-- The module that a string literal names, unless the literal is empty. -/
def moduleOf? (text : String) (literal : Syntax.Node) : Option String :=
  ((literal.text? text).map Extraction.unquote).filter (· != "")

/-- What the specifiers of a kind in a list name. -/
def specifiedNames (text kind : String) (list : Syntax.Node) : List String :=
  (list.childrenOf kind).filterMap fun specifier =>
    (specifier.child? "name").bind (·.text? text)

/-- The literal in the clause that gives a name to a required module. -/
def requiredLiteral? (statement : Syntax.Node) : Option Syntax.Node := do
  let clause ← statement.children.find? (·.kind == "import_require_clause")
  (clause.child? "source").or (clause.children.find? (·.kind == "string"))

/-- The import that an import statement stands for. -/
def importStatement? (text : String) (node : Syntax.Node) : Option Import :=
  match node.child? "source" with
  | some literal =>
    (moduleOf? text literal).map fun source =>
      { source := source
        names := (node.childrenOf "import_clause").flatMap fun clause =>
          (clause.childrenOf "named_imports").flatMap (specifiedNames text "import_specifier")
        kind := .es6
        line := node.line }
  | none =>
    ((requiredLiteral? node).bind (moduleOf? text)).map fun source =>
      { source := source, kind := .commonJS, line := node.line }

/-- The import that an export statement with a source stands for. -/
def reExport? (text : String) (node : Syntax.Node) : Option Import :=
  ((node.child? "source").bind (moduleOf? text)).map fun source =>
    { source := source
      names := (node.childrenOf "export_clause").flatMap (specifiedNames text "export_specifier")
      wildcard := node.children.any fun child => child.kind == "*" || child.kind == "namespace_export"
      kind := .reExport
      line := node.line }

/-- The name that one part of a destructuring of properties takes out. -/
def takenName? (text : String) (part : Syntax.Node) : Option String :=
  if part.kind == "shorthand_property_identifier_pattern" then part.text? text
  else if part.kind == "pair_pattern" then (part.child? "key").bind (·.text? text)
  else none

/-- The names that a destructuring of properties takes out, in ascending order, if it is what the
node declares. -/
def boundNames (text : String) (declarator : Syntax.Node) : List String :=
  if declarator.kind == "variable_declarator" then
    match declarator.child? "name" with
    | some pattern =>
      if pattern.kind == "object_pattern" then
        Text.sortedUnique (pattern.namedChildren.filterMap (takenName? text))
      else []
    | none => []
  else []

/-- The kind of import that a call of a function is. -/
def callKind? (function : String) : Option ImportKind :=
  match function with
  | "require" => some .commonJS
  | "import" => some .dynamic
  | _ => none

/-- The import that a call stands for. The first argument is the node around the call. -/
def callImport? (text : String) (parent : Option Syntax.Node) (node : Syntax.Node) : Option Import := do
  let function ← node.child? "function"
  let kind ← callKind? (← function.text? text)
  let arguments ← node.child? "arguments"
  let literal ← arguments.children.find? (·.kind == "string")
  let source ← literal.text? text
  some { source := Extraction.unquote source
         names := if kind = .commonJS then (parent.map (boundNames text)).getD [] else []
         kind := kind
         line := node.line }

/-- The import that a node stands for, given the node around it. -/
def importOf? (text : String) (visit : Option Syntax.Node × Syntax.Node) : Option Import :=
  match visit.2.kind with
  | "import_statement" => importStatement? text visit.2
  | "export_statement" => reExport? text visit.2
  | "call_expression" => callImport? text visit.1 visit.2
  | _ => none

/-! ## Exports -/

/-- The kinds of nodes that are names of exports; a destructuring is none. -/
def exportedKinds : List String := ["identifier", "type_identifier", "property_identifier"]

/-- The export of a construct under its own name. -/
def namedExport? (text : String) (kind : SymbolKind) (node : Syntax.Node) : Option Export :=
  ((node.child? "name").filter fun name => exportedKinds.contains name.kind).bind
    (Extraction.exportOf? text (fun _ => true) kind)

/-- Declarations of functions. -/
def functionKinds : List String :=
  ["function_declaration", "generator_function_declaration", "function_signature"]

/-- Declarations of types. -/
def typeKinds : List String :=
  ["class_declaration", "abstract_class_declaration", "interface_declaration",
   "type_alias_declaration", "enum_declaration"]

/-- Declarations of variables and constants. -/
def variableKinds : List String := ["lexical_declaration", "variable_declaration"]

/-- The kind of symbol that a declaration of variables introduces. -/
def variableKind (text : String) (declaration : Syntax.Node) : SymbolKind :=
  if declaration.children.head?.bind (·.text? text) = some "const" then .constant else .variable

/-- The exports of one part of an export statement. -/
def partExports (text : String) (part : Syntax.Node) : List Export :=
  if functionKinds.contains part.kind then (namedExport? text .function part).toList
  else if typeKinds.contains part.kind then (namedExport? text .type part).toList
  else if variableKinds.contains part.kind then
    (part.childrenOf "variable_declarator").filterMap (namedExport? text (variableKind text part))
  else if part.kind == "export_clause" then
    (part.childrenOf "export_specifier").filterMap (namedExport? text .variable)
  else []

/-- The exports of one top-level construct: none unless it is an export statement without a source
and without a default. -/
def statementExports (text : String) (node : Syntax.Node) : List Export :=
  if node.kind == "export_statement" then
    if (node.child? "source").isSome || node.children.any (·.kind == "default") then []
    else node.children.flatMap (partExports text)
  else []

/-- What the syntax tree of a text holds. -/
def extraction (root : Syntax.Node) (text : String) : Extraction where
  imports := root.visits.filterMap (importOf? text)
  exports := root.children.flatMap (statementExports text)
  identifiers := Extraction.identifiersOf identifierKinds root text

end ModuleAtlas.EcmaScript
