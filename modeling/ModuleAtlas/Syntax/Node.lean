import ModuleAtlas.Text.Slice

/-!
# Syntax trees

A node has a kind, perhaps a field that it fills in its parent, and the place where it stands in the
source: the bytes where it starts and stops, and the line where it starts. What a node spells is not
kept but looked up in the source.
-/

namespace ModuleAtlas.Syntax

/-- What is known of a node apart from its children. -/
structure Label where
  kind : String
  /-- the field of its parent that it fills -/
  field : Option String := none
  /-- the grammar has a name for it, unlike for keywords and punctuation -/
  isNamed : Bool := true
  /-- it stands for text that cannot be read, or for text that is missing -/
  isFault : Bool := false
  /-- bytes in front of it -/
  start : Nat
  /-- bytes up to its end -/
  stop : Nat
  /-- the line where it starts, counted from 0 -/
  row : Nat
  deriving DecidableEq, Repr

/-- A node with its children in source order. -/
inductive Node where
  | mk (label : Label) (children : List Node)

namespace Node

/-- What is known of the node apart from its children. -/
def label : Node → Label
  | .mk label _ => label

/-- The nodes directly inside it. -/
def children : Node → List Node
  | .mk _ children => children

/-- The kind of the node. -/
def kind (node : Node) : String := node.label.kind

/-- The byte where the node starts. -/
def start (node : Node) : Nat := node.label.start

/-- The byte where the node stops. -/
def stop (node : Node) : Nat := node.label.stop

/-- The line where the node starts, counted from 0. -/
def row (node : Node) : Nat := node.label.row

/-- The line where the node starts, counted from 1. -/
def line (node : Node) : Nat := node.row + 1

/-- What the node spells in the source. -/
def text? (source : String) (node : Node) : Option String :=
  Text.slice? source node.start node.stop

/-- The children that fill a field. -/
def childrenAs (field : String) (node : Node) : List Node :=
  node.children.filter (·.label.field == some field)

/-- The first child that fills a field. -/
def child? (field : String) (node : Node) : Option Node :=
  node.children.find? (·.label.field == some field)

/-- The children that the grammar has a name for. -/
def namedChildren (node : Node) : List Node := node.children.filter (·.label.isNamed)

/-- The children of a kind. -/
def childrenOf (kind : String) (node : Node) : List Node := node.children.filter (·.kind == kind)

/-- The node as it stands in a field. -/
def inField (field : String) (node : Node) : Node :=
  .mk { node.label with field := some field } node.children

mutual
/-- Every node of a tree with the node around it, each before what is inside it, put in front of
`tail`. -/
def visitsOnto (parent : Option Node) : Node → List (Option Node × Node) → List (Option Node × Node)
  | .mk label children, tail =>
    (parent, .mk label children) :: forestVisitsOnto (some (.mk label children)) children tail
/-- The same of several trees inside one node. -/
def forestVisitsOnto (parent : Option Node) :
    List Node → List (Option Node × Node) → List (Option Node × Node)
  | [], tail => tail
  | node :: more, tail => visitsOnto parent node (forestVisitsOnto parent more tail)
end

/-- Every node of a tree with the node around it, each before what is inside it. -/
def visits (root : Node) : List (Option Node × Node) := root.visitsOnto none []

/-- Every node of a tree, each before what is inside it. -/
def preorder (root : Node) : List Node := root.visits.map (·.2)

end Node

end ModuleAtlas.Syntax
