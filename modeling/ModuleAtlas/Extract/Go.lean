import ModuleAtlas.Extraction
import ModuleAtlas.Text.LowerCase

/-!
# Imports and exports of Go files

A package-level function, type, constant or variable is exported when its name starts with an
upper-case letter. Methods belong to their receiver and are no exports.
-/

namespace ModuleAtlas.Go

open Syntax

/-- The kinds of nodes that are identifiers. -/
def identifierKinds : List String :=
  ["identifier", "type_identifier", "field_identifier", "package_identifier"]

/-- The import that a node stands for; a point in place of a name takes in every name. -/
def importOf? (text : String) (node : Syntax.Node) : Option Import :=
  if node.kind == "import_spec" then
    ((node.child? "path").bind (·.text? text)).map fun path =>
      { source := Extraction.unquote path
        wildcard := (node.child? "name").any (·.kind == "dot")
        kind := .go
        line := node.line }
  else none

/-- Is a name visible outside its package? -/
def isExported (name : String) : Bool :=
  name.toList.head?.any Text.isUpperCase && name != "main" && name != "init"

/-- The export of a name. -/
def nameExport? (text : String) (kind : SymbolKind) (name : Syntax.Node) : Option Export :=
  Extraction.exportOf? text isExported kind name

/-- The export of a construct that introduces one name. -/
def namedExport? (text : String) (kind : SymbolKind) (node : Syntax.Node) : Option Export :=
  (node.child? "name").bind (nameExport? text kind)

/-- The lists of specs in a declaration. -/
def specLists : List String := ["var_spec_list", "const_spec_list", "type_spec_list"]

mutual
/-- The exports of one part of a declaration. A list of specs is looked into. -/
def specExports (text : String) (kind : SymbolKind) : Syntax.Node → List Export
  | .mk label children =>
    let node := Syntax.Node.mk label children
    if label.kind == "type_spec" || label.kind == "type_alias" then
      (namedExport? text kind node).toList
    else if label.kind == "const_spec" || label.kind == "var_spec" then
      (node.childrenAs "name").filterMap (nameExport? text kind)
    else if specLists.contains label.kind then specsExports text kind children
    else []
/-- The exports of several parts. Only those with a name in the grammar are looked at. -/
def specsExports (text : String) (kind : SymbolKind) : List Syntax.Node → List Export
  | [] => []
  | spec :: more =>
    (if spec.label.isNamed then specExports text kind spec else []) ++ specsExports text kind more
end

/-- The exports of one package-level construct. -/
def declarationExports (text : String) (node : Syntax.Node) : List Export :=
  match node.kind with
  | "function_declaration" => (namedExport? text .function node).toList
  | "type_declaration" => specsExports text .type node.children
  | "const_declaration" => specsExports text .constant node.children
  | "var_declaration" => specsExports text .variable node.children
  | _ => []

/-- What the syntax tree of a text holds. -/
def extraction (root : Syntax.Node) (text : String) : Extraction where
  imports := root.preorder.filterMap (importOf? text)
  exports := root.namedChildren.flatMap (declarationExports text)
  identifiers := Extraction.identifiersOf identifierKinds root text

end ModuleAtlas.Go
