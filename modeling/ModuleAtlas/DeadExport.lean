import ModuleAtlas.Metrics.Basic
import ModuleAtlas.Project
import ModuleAtlas.Settings

/-!
# Unused exports and unreachable modules

Modules that are used from outside are entry points. A module is unreachable if no entry point leads
to it along imports. An export is used if a module that imports its file names it, whether that
module is reachable or not: the walk from the entry points is followed by walks from all other
modules, so that every import is looked at once.
-/

namespace ModuleAtlas

open Std (TreeSet)

/-- Names of files that are run and not imported. -/
def conventionalEntries : List String :=
  ["main.go", "main.py", "__main__.py", "app.py", "manage.py", "index.ts", "index.js", "index.tsx",
    "index.jsx", "main.ts", "main.js", "server.ts", "server.js"]

namespace Graph

/-- A module whose file name is conventional for a program, or one at the root that no other module
imports. -/
def isNaturalEntry (g : Graph) (id : String) : Bool :=
  conventionalEntries.contains (Path.fileName id) ||
    (Path.depth id == 0 && (g.dependents id).all (· == id))

/-- The entry points in ascending order: those configured, and those that look like it. -/
def entryPoints (g : Graph) (configured : List String) : List String :=
  g.ids.filter fun id => configured.contains id || g.isNaturalEntry id

/-- The walk from the entry points. -/
def entryWalk (g : Graph) (configured : List String) : Walk := g.walk (g.entryPoints configured) ∅

/-- The modules that no entry point reaches, in ascending order. -/
def unreachable (g : Graph) (configured : List String) : List String :=
  let reached := (g.entryWalk configured).marked
  g.ids.filter fun id => !reached.contains id

/-- All modules, those that the entry points reach first. -/
def visits (g : Graph) (configured : List String) : List String :=
  let first := g.entryWalk configured
  first.visits ++ (g.sweep g.ids first.marked).visits

end Graph

namespace Project

/-- The modules whose exports an import of a module shows: the whole package of a Go file, and the
module itself elsewhere. -/
def shown (p : Project) (r : Resolver) (target : String) : List String :=
  match p.facts? target with
  | none => []
  | some facts =>
    if facts.language = .go then r.goPackageMembers target else [target]

/-- Does an import in a module name an export? -/
def names (importer : Facts) (e : ImportEdge) (name : String) : Bool :=
  e.statement.wildcard || e.statement.names.contains name || importer.extraction.uses name

/-- The exports that the imports of a module use, each with its module. -/
def usedBy (p : Project) (r : Resolver) (importer : Facts) : List (String × String) :=
  importer.edges.flatMap fun e =>
    match e.target? with
    | none => []
    | some target =>
      (p.shown r target).flatMap fun id =>
        match p.facts? id with
        | none => []
        | some facts =>
          (facts.extraction.exports.filter fun x => names importer e x.name).map
            fun x => (id, x.name)

/-- The exports that the imports of some modules use. -/
def used (p : Project) (r : Resolver) (importers : List String) : List (String × String) :=
  importers.flatMap fun id =>
    match p.facts? id with
    | none => []
    | some facts => p.usedBy r facts

/-- The directories of the Go packages. -/
def goDirectories (p : Project) : List String :=
  Text.sortedUnique <| (p.modules.entries.filter fun (_, facts) => facts.language = .go).map
    fun (id, _) => Path.parent id

/-- Are the exports of a module looked at? Those of entry points may be left out, and a single Go
package has no other to use its exports. -/
def isJudged (ignored : List String) (singlePackage : Bool) (id : String) (facts : Facts) : Bool :=
  !ignored.contains id && !(facts.language = .go && singlePackage)

/-- The exports that no module of the graph uses, by module and in source order. -/
def deadExports (p : Project) (g : Graph) (r : Resolver) (settings : AnalysisSettings) :
    List DeadExport :=
  let ignored := if settings.ignoreEntryExports then g.entryPoints settings.entryPoints else []
  let singlePackage := p.goDirectories.length ≤ 1
  let used := p.used r (g.visits settings.entryPoints)
  p.modules.entries.flatMap fun (id, facts) =>
    if isJudged ignored singlePackage id facts then
      let usedHere := (used.filter (·.1 = id)).map (·.2)
      (facts.extraction.exports.filter fun e => !usedHere.contains e.name).map fun e =>
        ⟨id, e.name, e.kind, e.line⟩
    else []

end Project

end ModuleAtlas
