import ModuleAtlas.Extraction
import ModuleAtlas.Graph.Cycle
import ModuleAtlas.Metrics.Average

/-!
# Metrics

What an analysis finds out about a project: counts, averages and maxima, and lists of cycles, unused
exports, unreachable modules and files that could not be read. The metrics of several projects are
merged into one record after their paths have been put below the project roots.
-/

namespace ModuleAtlas

/-- The depth of modules below the project root. -/
structure DepthSummary (α : Type) where
  average : α
  max : Nat := 0
  deriving DecidableEq, Repr

/-- The number of modules that modules import. -/
structure FanoutSummary (α : Type) where
  average : α
  max : Nat := 0
  /-- the first module with the maximum, unless that is zero -/
  maxModule : Option String := none
  deriving DecidableEq, Repr

/-- The steps up in relative imports that lead to a module. -/
structure ComplexitySummary (α : Type) where
  average : α
  max : Nat := 0
  /-- the first import with the maximum, unless that is zero -/
  maxImport : Option String := none
  /-- the module of that import -/
  maxModule : Option String := none
  /-- the number of imports that the average is taken over -/
  relativeImports : Nat := 0
  deriving DecidableEq, Repr

/-- The number of import statements in modules and for modules. -/
structure CouplingSummary (α : Type) where
  averageEfferent : α
  maxAfferent : Nat := 0
  /-- the first module with the maximum, unless that is zero -/
  maxAfferentModule : Option String := none
  deriving DecidableEq, Repr

/-- An export that nothing in the project uses. -/
structure DeadExport where
  module : String
  name : String
  kind : SymbolKind := .function
  line : Nat := 0
  deriving DecidableEq, Repr

/-- A file that could not be analysed. -/
structure Warning where
  path : String
  message : String
  deriving DecidableEq, Repr

/-- The metrics of a project or of several. -/
structure Metrics (α : Type) where
  moduleCount : Nat := 0
  edgeCount : Nat := 0
  externalCount : Nat := 0
  depth : DepthSummary α
  fanout : FanoutSummary α
  cycles : List Cycle := []
  complexity : ComplexitySummary α
  coupling : CouplingSummary α
  deadExports : List DeadExport := []
  unreachable : List String := []
  warnings : List Warning := []
  deriving DecidableEq, Repr

namespace Metrics

variable {α : Type} [Average α]

/-- The metrics of a project without modules. -/
def empty : Metrics α where
  depth := ⟨Average.zero, 0⟩
  fanout := { average := Average.zero }
  complexity := { average := Average.zero }
  coupling := { averageEfferent := Average.zero }

/-- No module was analysed. -/
def isEmpty (m : Metrics α) : Bool := m.moduleCount == 0

/-- Applies a function to every path. -/
def mapPaths (f : String → String) (m : Metrics α) : Metrics α :=
  { m with
    fanout := { m.fanout with maxModule := m.fanout.maxModule.map f }
    cycles := m.cycles.map fun c => ⟨c.modules.map f⟩
    complexity := { m.complexity with maxModule := m.complexity.maxModule.map f }
    coupling := { m.coupling with maxAfferentModule := m.coupling.maxAfferentModule.map f }
    deadExports := m.deadExports.map fun e => { e with module := f e.module }
    unreachable := m.unreachable.map f
    warnings := m.warnings.map fun w => { w with path := f w.path } }

/-- Puts every path below a root. -/
def below (root : String) (m : Metrics α) : Metrics α :=
  if root = "" then m else m.mapPaths fun path => root ++ "/" ++ path

/-- The metrics of two projects together. Averages are weighted by what they are taken over, of two
equal maxima the first stays, and lists are appended. -/
def merge (m n : Metrics α) : Metrics α where
  moduleCount := m.moduleCount + n.moduleCount
  edgeCount := m.edgeCount + n.edgeCount
  externalCount := m.externalCount + n.externalCount
  depth := {
    average := Average.weighted m.depth.average m.moduleCount n.depth.average n.moduleCount
    max := Nat.max m.depth.max n.depth.max }
  fanout := {
    (if m.fanout.max < n.fanout.max then n.fanout else m.fanout) with
    average := Average.weighted m.fanout.average m.moduleCount n.fanout.average n.moduleCount }
  cycles := m.cycles ++ n.cycles
  complexity := {
    (if m.complexity.max < n.complexity.max then n.complexity else m.complexity) with
    average := Average.weighted m.complexity.average m.complexity.relativeImports
      n.complexity.average n.complexity.relativeImports
    relativeImports := m.complexity.relativeImports + n.complexity.relativeImports }
  coupling := {
    (if m.coupling.maxAfferent < n.coupling.maxAfferent then n.coupling else m.coupling) with
    averageEfferent := Average.weighted m.coupling.averageEfferent m.moduleCount
      n.coupling.averageEfferent n.moduleCount }
  deadExports := m.deadExports ++ n.deadExports
  unreachable := m.unreachable ++ n.unreachable
  warnings := m.warnings ++ n.warnings

/-- The metrics of several projects together. -/
def mergeAll : List (Metrics α) → Metrics α
  | [] => empty
  | first :: rest => rest.foldl merge first

end Metrics

end ModuleAtlas
