import ModuleAtlas.Graph.Basic

/-!
# Building graphs

Modules and import statements are added one by one, in any order; a statement counts only if the
modules it names are known by then.
-/

namespace ModuleAtlas

open Std (TreeMap)

/-- A module whose statements are being counted. -/
structure NodeDraft where
  module : Module
  /-- the statements for each module it imports -/
  targets : TreeMap String Nat := ∅

/-- A graph under construction. -/
structure GraphBuilder where
  nodes : TreeMap String NodeDraft := ∅

namespace GraphBuilder

/-- Is the module known? -/
def knows (b : GraphBuilder) (id : String) : Bool := b.nodes.contains id

/-- Adds a module. One that is known already stays as it is. -/
def addModule (b : GraphBuilder) (id : String) (language : Language) : GraphBuilder :=
  ⟨b.nodes.insertIfNew id { module := { id := id, language := language } }⟩

/-- Counts one more statement in a module. -/
def countStatement (node : NodeDraft) (target : String) : NodeDraft where
  module := { node.module with statements := node.module.statements + 1 }
  targets := node.targets.alter target fun count => some (count.getD 0 + 1)

/-- Counts one more statement that leads out of the project. -/
def countExternal (node : NodeDraft) : NodeDraft :=
  { node with module :=
    { node.module with
      statements := node.module.statements + 1
      externals := node.module.externals + 1 } }

/-- Adds an import statement between two known modules. -/
def addImport? (b : GraphBuilder) (source target : String) : Option GraphBuilder :=
  if b.knows source && b.knows target then
    some ⟨b.nodes.alter source fun node => node.map (countStatement · target)⟩
  else none

/-- Adds a statement in a known module that leads out of the project. -/
def addExternal? (b : GraphBuilder) (source : String) : Option GraphBuilder :=
  if b.knows source then some ⟨b.nodes.alter source fun node => node.map countExternal⟩ else none

/-- The graph of all that was added. -/
def build (b : GraphBuilder) : Graph :=
  ⟨(Keyed.ofMap b.nodes).map fun _ node => ⟨node.module, node.targets.toList⟩⟩

end GraphBuilder

end ModuleAtlas
