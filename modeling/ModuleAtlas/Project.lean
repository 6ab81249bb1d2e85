import ModuleAtlas.Graph.Builder
import ModuleAtlas.Resolver
import ModuleAtlas.Source

/-!
# Projects

The facts about the modules of one project: what was extracted from each file, and where its imports
lead. `link` resolves the imports among the files of the project, and `graph` is the graph of what is
linked. A file from which nothing can be extracted is left out with a warning.
-/

namespace ModuleAtlas

/-- An import statement and where it leads. -/
structure ImportEdge where
  statement : Import
  resolution : Resolution := .external
  deriving DecidableEq, Repr

namespace ImportEdge

/-- The module that the import leads to. -/
def target? (e : ImportEdge) : Option String := e.resolution.target?

/-- The import leads to a module of the project. -/
def isResolved (e : ImportEdge) : Bool := e.target?.isSome

/-- The import is written relative to its file. -/
def isRelative (e : ImportEdge) : Bool := e.statement.isRelative

/-- The steps up in the import. -/
def hops (e : ImportEdge) : Nat := e.resolution.hops

end ImportEdge

/-- What is known about a module. -/
structure Facts where
  language : Language
  extraction : Extraction := {}
  /-- the linked imports in source order -/
  edges : List ImportEdge := []
  deriving DecidableEq, Repr

/-- The modules of a project with what is known about them. -/
structure Project where
  modules : Keyed Facts

/-- A file that could not be read, with the reason. -/
structure Rejection where
  path : String
  error : ExtractError
  deriving DecidableEq, Repr

namespace Project

/-- The names of the modules in ascending order. -/
def ids (p : Project) : List String := p.modules.keys

/-- What is known about a module. -/
def facts? (p : Project) (id : String) : Option Facts := p.modules.find? id

/-- The source files among some files. -/
def sources (files : List SourceFile) : List SourceFile :=
  files.filter fun file => file.fileClass = .source

section

variable [Syntax.Parser]

/-- What was extracted from a file. -/
def factsOf? (file : SourceFile) : Option (String × Facts) :=
  match file.extract with
  | .ok extraction => some (file.path, { language := file.language, extraction := extraction })
  | .error _ => none

/-- Why nothing was extracted from a file. -/
def rejectionOf? (file : SourceFile) : Option Rejection :=
  match file.extract with
  | .ok _ => none
  | .error error => some ⟨file.path, error⟩

/-- The project of some files before its imports are linked. Of several files with one path the last
one counts. -/
def ofFiles (files : List SourceFile) : Project :=
  ⟨Keyed.ofList ((sources files).filterMap factsOf?)⟩

/-- The source files that could not be read, in ascending order. -/
def rejections (files : List SourceFile) : List Rejection :=
  ((sources files).filterMap rejectionOf?).mergeSort fun a b => Text.atMost a.path b.path

end

/-- The resolver of the imports between the modules of a project. -/
def resolver (p : Project) (manifest : Manifest) : Resolver := .ofFiles p.ids manifest

/-- Resolves the imports of every module. -/
def link (p : Project) (r : Resolver) : Project :=
  ⟨p.modules.map fun id facts =>
    { facts with
      edges := facts.extraction.imports.map fun i => ⟨i, r.resolve i id facts.language⟩ }⟩

/-- Adds a linked import of a module to a graph. What the graph does not know is left out. -/
def addEdge (id : String) (b : GraphBuilder) (e : ImportEdge) : GraphBuilder :=
  match e.target? with
  | some target => (b.addImport? id target).getD b
  | none => (b.addExternal? id).getD b

/-- The graph of a linked project. -/
def graph (p : Project) : Graph :=
  let known := p.modules.entries.foldl (fun b (id, facts) => b.addModule id facts.language)
    ({} : GraphBuilder)
  (p.modules.entries.foldl (fun b (id, facts) => facts.edges.foldl (addEdge id) b) known).build

end Project

end ModuleAtlas
