import ModuleAtlas.Keyed
import ModuleAtlas.Language
import ModuleAtlas.Path

/-!
# Dependency graphs

The modules of a project and the import statements between them. All statements from one module to
another are one edge, which counts them. Modules and edges are in ascending order.
-/

namespace ModuleAtlas

/-- The sum of some counts. -/
def total (counts : List Nat) : Nat := counts.foldr (· + ·) 0

/-- A source file as a module. -/
structure Module where
  /-- the path of the file below the project root -/
  id : String
  language : Language
  /-- the import statements in the file -/
  statements : Nat := 0
  /-- those of them that lead out of the project -/
  externals : Nat := 0
  deriving DecidableEq, Repr

/-- The number of directories above the file of a module. -/
def Module.depth (m : Module) : Nat := Path.depth m.id

/-- A module with its outgoing edges: the modules it imports and the number of statements for each,
in ascending order. -/
structure Node where
  module : Module
  targets : List (String × Nat) := []
  deriving DecidableEq, Repr

/-- The modules of a project with their edges. -/
structure Graph where
  nodes : Keyed Node

namespace Graph

instance : EmptyCollection Graph := ⟨⟨∅⟩⟩

/-- The modules in ascending order. -/
def modules (g : Graph) : List Module := g.nodes.values.map (·.module)

/-- The names of the modules in ascending order. -/
def ids (g : Graph) : List String := g.nodes.keys

/-- The module of a name. -/
def module? (g : Graph) (id : String) : Option Module := (g.nodes.find? id).map (·.module)

/-- Is there a module of that name? -/
def contains (g : Graph) (id : String) : Bool := g.nodes.contains id

/-- The edges out of a module. -/
def targets (g : Graph) (id : String) : List (String × Nat) :=
  ((g.nodes.find? id).map (·.targets)).getD []

/-- The modules that a module imports, in ascending order. -/
def dependencies (g : Graph) (id : String) : List String := (g.targets id).map (·.1)

/-- The number of import statements in one module that lead to another. -/
def statementsBetween (g : Graph) (source target : String) : Nat :=
  ((g.targets source).lookup target).getD 0

/-- Does a module import another? -/
def hasEdge (g : Graph) (source target : String) : Bool := (g.dependencies source).contains target

/-- Does a module import itself? -/
def hasSelfLoop (g : Graph) (id : String) : Bool := g.hasEdge id id

/-- The modules that import a module, in ascending order. -/
def dependents (g : Graph) (id : String) : List String := g.ids.filter (g.hasEdge · id)

/-- The number of modules that a module imports. -/
def fanout (g : Graph) (id : String) : Nat := (g.targets id).length

/-- The number of import statements that lead to a module. -/
def afferent (g : Graph) (id : String) : Nat := total (g.ids.map (g.statementsBetween · id))

/-- The number of import statements in a module. -/
def efferent (g : Graph) (id : String) : Nat := ((g.module? id).map (·.statements)).getD 0

/-- The number of modules. -/
def moduleCount (g : Graph) : Nat := g.nodes.entries.length

/-- The number of edges. -/
def edgeCount (g : Graph) : Nat := total (g.ids.map g.fanout)

/-- The number of import statements that lead out of the project. -/
def externalCount (g : Graph) : Nat := total (g.modules.map (·.externals))

end Graph

end ModuleAtlas
