import ModuleAtlas.Syntax.Node
import ModuleAtlas.Text.Sorted

/-!
# What is read out of one source file

An extraction lists the import statements of a file as written, the symbols it exports, and every
identifier that occurs in it. Lines count from 1.
-/

namespace ModuleAtlas

/-- The syntactic form of an import. -/
inductive ImportKind where
  /-- `import … from 'module'` -/
  | es6
  /-- `require('module')` -/
  | commonJS
  /-- `import('module')` -/
  | dynamic
  /-- `export … from 'module'` -/
  | reExport
  /-- `import module` -/
  | pythonImport
  /-- `from module import …` -/
  | pythonFrom
  /-- `import "path"` -/
  | go
  deriving DecidableEq, Repr

/-- One import statement as written. -/
structure Import where
  source : String
  /-- the names the statement lists -/
  names : List String := []
  /-- the statement takes in every name -/
  wildcard : Bool := false
  kind : ImportKind := .es6
  line : Nat := 0
  deriving DecidableEq, Repr

/-- An import written relative to the importing file. -/
def Import.isRelative (i : Import) : Bool := i.source.toList.head? == some '.'

/-- What kind of thing an exported name is. -/
inductive SymbolKind where
  | function
  | type
  | variable
  | constant
  deriving DecidableEq, Repr

/-- The word for a kind of symbol in reports. -/
def SymbolKind.name : SymbolKind → String
  | .function => "function"
  | .type => "type"
  | .variable => "variable"
  | .constant => "constant"

/-- A name that a file makes visible to others. -/
structure Export where
  name : String
  kind : SymbolKind := .function
  line : Nat := 0
  deriving DecidableEq, Repr

/-- What one source file imports, exports and names. -/
structure Extraction where
  /-- in source order -/
  imports : List Import := []
  /-- in source order -/
  exports : List Export := []
  /-- ascending, each once -/
  identifiers : List String := []
  deriving DecidableEq, Repr

/-- Does the name occur in the file as an identifier? -/
def Extraction.uses (e : Extraction) (name : String) : Bool := e.identifiers.contains name

namespace Extraction

open Syntax

/-- What the nodes of some kinds spell. -/
def identifiersOf (kinds : List String) (root : Syntax.Node) (text : String) : List String :=
  Text.sortedUnique
    ((root.preorder.filter fun node => kinds.contains node.kind).filterMap (·.text? text))

/-- A text without the quotes of any kind at its ends. -/
def unquote (text : String) : String :=
  let isQuote (c : Char) : Bool := c == '"' || c == '\'' || c == '`'
  let inner := (text.toList.dropWhile isQuote).reverse.dropWhile isQuote
  String.ofList inner.reverse

/-- The export of what a node spells, if it is a name to be exported. -/
def exportOf? (text : String) (isExported : String → Bool) (kind : SymbolKind) (name : Syntax.Node) :
    Option Export :=
  ((name.text? text).filter isExported).map fun spelt => ⟨spelt, kind, name.line⟩

end Extraction

end ModuleAtlas
