import Std.Data.TreeSet.Lemmas
import ModuleAtlas.Graph.Basic

/-!
# Walking a graph

A breadth-first walk visits what its starts reach along the edges, each module once. Modules are
marked when they enter the queue, so that none enters twice; what is marked already is passed over,
also by later walks.
-/

namespace ModuleAtlas

open Std (TreeSet)

/-- The visits of a walk in order, and all modules that are marked at its end. -/
structure Walk where
  visits : List String
  marked : TreeSet String

namespace Walk

/-- The members of a list that are not marked, each once. -/
def fresh (marked : TreeSet String) : List String → List String
  | [] => []
  | id :: rest => if marked.contains id then fresh marked rest else id :: fresh (marked.insert id) rest

/-- Marks the members of a list. -/
def mark (marked : TreeSet String) (ids : List String) : TreeSet String := marked.insertMany ids

/-- Visits the queue from its front, and puts what is reached from there at its end. Each visit uses
one unit of the first argument. -/
def run (next : String → List String) : Nat → List String → TreeSet String → Walk
  | 0, _, marked => ⟨[], marked⟩
  | _ + 1, [], marked => ⟨[], marked⟩
  | more + 1, id :: queue, marked =>
    let reached := fresh marked (next id)
    let rest := run next more (queue ++ reached) (mark marked reached)
    ⟨id :: rest.visits, rest.marked⟩

end Walk

namespace Graph

/-- The walk from the starts that are not marked. No walk makes more visits than there are modules. -/
def walk (g : Graph) (starts : List String) (marked : TreeSet String) : Walk :=
  let queue := Walk.fresh marked starts
  Walk.run g.dependencies g.moduleCount queue (Walk.mark marked queue)

/-- Walks from one module after another. -/
def sweep (g : Graph) : List String → TreeSet String → Walk
  | [], marked => ⟨[], marked⟩
  | id :: rest, marked =>
    let first := g.walk [id] marked
    let others := g.sweep rest first.marked
    ⟨first.visits ++ others.visits, others.marked⟩

/-- The modules that a module reaches along one edge or more. -/
def downstream (g : Graph) (id : String) : Walk := g.walk (g.dependencies id) ∅

end Graph

end ModuleAtlas
