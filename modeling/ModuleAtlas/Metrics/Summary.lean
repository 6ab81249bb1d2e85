import ModuleAtlas.Metrics.Basic
import ModuleAtlas.Project

/-!
# Summaries of a graph

Averages and maxima over the modules of a graph and over the linked imports of a project. A maximum
comes with the first element in which it is reached, unless it is zero.
-/

namespace ModuleAtlas

/-- The largest positive value of a list, with the first label that has it. -/
def firstMax {α : Type} (values : List (α × Nat)) : Nat × Option α :=
  values.foldl (fun best (label, value) => if best.1 < value then (value, some label) else best)
    (0, none)

namespace Graph

variable {α : Type} [Average α]

/-- The depth of the modules. -/
def depthSummary (g : Graph) : DepthSummary α :=
  let depths := g.modules.map Module.depth
  ⟨Average.mean (total depths) g.moduleCount, depths.foldl Nat.max 0⟩

/-- The number of modules that the modules import. -/
def fanoutSummary (g : Graph) : FanoutSummary α :=
  let fanouts := g.ids.map fun id => (id, g.fanout id)
  let best := firstMax fanouts
  ⟨Average.mean (total (fanouts.map (·.2))) g.moduleCount, best.1, best.2⟩

/-- The number of import statements in the modules and for them. -/
def couplingSummary (g : Graph) : CouplingSummary α :=
  let best := firstMax (g.ids.map fun id => (id, g.afferent id))
  ⟨Average.mean (total (g.modules.map (·.statements))) g.moduleCount, best.1, best.2⟩

end Graph

/-- The relative imports that lead to a module, each with the module it stands in. -/
def relativeEdges (edges : List (String × List ImportEdge)) : List (String × ImportEdge) :=
  edges.flatMap fun (id, edges) =>
    (edges.filter fun e => e.isRelative && e.isResolved).map fun e => (id, e)

/-- The steps up in the relative imports of some modules. -/
def complexitySummary {α : Type} [Average α] (edges : List (String × List ImportEdge)) :
    ComplexitySummary α :=
  let hops := (relativeEdges edges).map fun (id, e) => ((id, e.statement.source), e.hops)
  let best := firstMax hops
  { average := Average.mean (total (hops.map (·.2))) hops.length
    max := best.1
    maxImport := best.2.map (·.2)
    maxModule := best.2.map (·.1)
    relativeImports := hops.length }

end ModuleAtlas
