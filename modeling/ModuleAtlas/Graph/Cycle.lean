import ModuleAtlas.Graph.Walk
import ModuleAtlas.Text.Split

/-!
# Cycles

A cycle is a largest set of modules each of which reaches every other and itself along one edge or
more. It is listed from its least module on, depth first. The listing is a stable order of the
modules; only for a simple cycle is it a path.
-/

namespace ModuleAtlas

open Std (TreeSet)

/-- The modules of a cycle, each once, from the least one on. -/
structure Cycle where
  modules : List String
  deriving DecidableEq, Repr

namespace Cycle

/-- The modules of a cycle, with the first one again at the end. -/
def closed (c : Cycle) : List String := c.modules ++ c.modules.head?.toList

/-- The closed cycle as a text. -/
def path (c : Cycle) : String := Text.join " -> " c.closed

/-- The cycle is one module that imports itself. -/
def isSelfLoop (c : Cycle) : Bool := c.modules.length == 1

end Cycle

namespace Graph

/-- Lists modules depth first from a stack. A module is pushed once for each edge to it, and is
passed over when it was listed before. Each step takes one module off the stack and uses one unit of
the second argument. -/
def listing (next : String → List String) : Nat → List String → TreeSet String → List String
  | 0, _, _ => []
  | _ + 1, [], _ => []
  | more + 1, id :: stack, listed =>
    if listed.contains id then listing next more stack listed
    else
      let pushed := (next id).filter fun successor => !(listed.insert id).contains successor
      id :: listing next more (pushed ++ stack) (listed.insert id)

/-- The edges of a graph inside a set of modules. -/
def dependenciesWithin (g : Graph) (members : TreeSet String) (id : String) : List String :=
  (g.dependencies id).filter members.contains

/-- The modules on a common cycle with a module; there are none if it is on no cycle. -/
def component (g : Graph) (id : String) : List String :=
  let reached := g.downstream id
  if reached.marked.contains id then
    reached.visits.filter fun other => (g.downstream other).marked.contains id
  else []

/-- The cycle with the given members, listed from `first` on. -/
def cycleFrom (g : Graph) (first : String) (members : List String) : Cycle :=
  ⟨listing (g.dependenciesWithin (TreeSet.ofList members)) (g.edgeCount + 1) [first] ∅⟩

/-- The cycles through modules of a list that are on none of the cycles before. -/
def cyclesThrough (g : Graph) : List String → TreeSet String → List Cycle
  | [], _ => []
  | id :: rest, covered =>
    if covered.contains id then g.cyclesThrough rest covered
    else
      match g.component id with
      | [] => g.cyclesThrough rest covered
      | members => g.cycleFrom id members :: g.cyclesThrough rest (covered.insertMany members)

/-- The cycles of a graph in ascending order of their least modules. -/
def cycles (g : Graph) : List Cycle := g.cyclesThrough g.ids ∅

/-- Is there a cycle? -/
def hasCycles (g : Graph) : Bool := !g.cycles.isEmpty

end Graph

end ModuleAtlas
