import ModuleAtlas.Extraction

/-!
# Imports and exports of Python files

Imports count wherever they stand, also inside functions. Exports are the functions, classes and
plain assignments at the top level whose names do not start with a low line.
-/

namespace ModuleAtlas.Python

open Syntax

/-- The kinds of nodes that are identifiers. -/
def identifierKinds : List String := ["identifier"]

/-- The node that spells an imported thing, without the name it is bound to. -/
def thing? (node : Syntax.Node) : Option Syntax.Node :=
  if node.kind == "aliased_import" then node.child? "name" else some node

/-- What the things that a statement imports are called. -/
def thingTexts (text : String) (statement : Syntax.Node) : List String :=
  (statement.childrenAs "name").filterMap fun node => (thing? node).bind (·.text? text)

/-- The import that a from-import stands for. -/
def fromImport? (text : String) (node : Syntax.Node) : Option Import :=
  ((node.child? "module_name").bind (·.text? text)).map fun module =>
    { source := module
      names := thingTexts text node
      wildcard := node.children.any (·.kind == "wildcard_import")
      kind := .pythonFrom
      line := node.line }

/-- The imports that a node stands for. -/
def importsOf (text : String) (node : Syntax.Node) : List Import :=
  match node.kind with
  | "import_statement" =>
    (thingTexts text node).map fun module =>
      { source := module, kind := .pythonImport, line := node.line }
  | "import_from_statement" => (fromImport? text node).toList
  | _ => []

/-- Is a name written like a constant: ASCII capitals, digits and low lines with a capital? -/
def isConstantName (name : String) : Bool :=
  name.toList.any Char.isUpper &&
    name.toList.all fun c => c.isUpper || c.isDigit || c == '_'

/-- Is a name visible outside its module? -/
def isPublic (name : String) : Bool := name.toList.head? != some '_'

/-- The export of a function or a class. -/
def namedExport? (text : String) (kind : SymbolKind) (node : Syntax.Node) : Option Export :=
  (node.child? "name").bind (Extraction.exportOf? text isPublic kind)

/-- The export of a name that is assigned. -/
def targetExport? (text : String) (target : Syntax.Node) : Option Export :=
  if target.kind == "identifier" then
    ((target.text? text).filter isPublic).map fun name =>
      ⟨name, if isConstantName name then .constant else .variable, target.line⟩
  else none

/-- The export of a statement that is an assignment. -/
def assignmentExport? (text : String) (statement : Syntax.Node) : Option Export :=
  statement.namedChildren.head?.bind fun assignment =>
    if assignment.kind == "assignment" then
      (assignment.child? "left").bind (targetExport? text)
    else none

mutual
/-- The export of one top-level construct; decorators do not matter. -/
def definitionExport? (text : String) : Syntax.Node → Option Export
  | .mk label children =>
    match label.kind with
    | "function_definition" => namedExport? text .function (.mk label children)
    | "class_definition" => namedExport? text .type (.mk label children)
    | "decorated_definition" => decoratedExport? text children
    | "expression_statement" => assignmentExport? text (.mk label children)
    | _ => none
/-- The export of the first part that is what decorators stand in front of. -/
def decoratedExport? (text : String) : List Syntax.Node → Option Export
  | [] => none
  | part :: more =>
    if part.label.field == some "definition" then definitionExport? text part
    else decoratedExport? text more
end

/-- What the syntax tree of a text holds. -/
def extraction (root : Syntax.Node) (text : String) : Extraction where
  imports := root.preorder.flatMap (importsOf text)
  exports := root.namedChildren.filterMap (definitionExport? text)
  identifiers := Extraction.identifiersOf identifierKinds root text

end ModuleAtlas.Python
