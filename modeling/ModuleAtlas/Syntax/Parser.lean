import ModuleAtlas.Syntax.Node

/-!
# Parsers

The analysis reads syntax trees, and leaves it to a parser to build them. Nothing is known about the
parser but the form of its answer: there is a tree for every text, and a text that does not follow its
grammar has faults in its tree.
-/

namespace ModuleAtlas.Syntax

/-- The grammars that a parser knows. -/
inductive Dialect where
  | go
  | python
  | typeScript
  /-- TypeScript with markup in expressions -/
  | typeScriptMarkup
  | javaScript
  deriving DecidableEq, Repr

/-- The answer of a parser. -/
structure Tree where
  root : Node
  /-- the text does not follow the grammar -/
  hasError : Bool

/-- The line of the first fault in a tree. -/
def Tree.faultLine (tree : Tree) : Nat :=
  match tree.root.preorder.find? (·.label.isFault) with
  | some fault => fault.line
  | none => 1

/-- A parser of source texts. -/
class Parser where
  parse : Dialect → String → Tree

/-- The syntax tree of a text. -/
def parse [parser : Parser] (dialect : Dialect) (text : String) : Tree := parser.parse dialect text

end ModuleAtlas.Syntax
