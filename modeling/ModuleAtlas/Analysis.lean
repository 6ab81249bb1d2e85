import ModuleAtlas.DeadExport
import ModuleAtlas.Metrics.Summary

/-!
# Analysis

`analyzeProject` computes the metrics of the files of one project. `analyzeWorkspace` shares the
files of a scan out among the projects in it, analyses each by itself, and merges what it finds. A
file belongs to the project whose root is the deepest one that contains it.
-/

namespace ModuleAtlas

variable {α : Type} [Average α]

/-! ## One project -/

/-- The warning about a file that could not be read. -/
def Rejection.warning (r : Rejection) : Warning := ⟨r.path, r.error.message⟩

/-- The metrics of a linked project. -/
def Project.metrics (p : Project) (r : Resolver) (settings : AnalysisSettings) : Metrics α :=
  let g := p.graph
  { moduleCount := g.moduleCount
    edgeCount := g.edgeCount
    externalCount := g.externalCount
    depth := g.depthSummary
    fanout := g.fanoutSummary
    cycles := g.cycles
    complexity := complexitySummary (p.modules.entries.map fun (id, facts) => (id, facts.edges))
    coupling := g.couplingSummary
    deadExports := p.deadExports g r settings
    unreachable := g.unreachable settings.entryPoints }

section

variable [Syntax.Parser]

/-- The metrics of the files of one project, whose paths are relative to its root. -/
def analyzeProject (files : List SourceFile) (manifest : Manifest) (settings : AnalysisSettings) :
    Metrics α :=
  let found := Project.ofFiles files
  let r := found.resolver manifest
  let metrics : Metrics α :=
    if found.ids.isEmpty then .empty else (found.link r).metrics r settings
  { metrics with warnings := (Project.rejections files).map Rejection.warning }

end

/-! ## Several projects -/

/-- Does a root contain a path? -/
def containsPath (root path : String) : Bool := (Path.below? root path).isSome

/-- The longest root in a list that contains a path; the scan root contains every path. -/
def owningRoot (roots : List String) (path : String) : String :=
  (roots.filter (containsPath · path)).foldl
    (fun best root => if best.length ≤ root.length then root else best) ""

/-- A path relative to a root that contains it. -/
def relativeTo (root path : String) : String := (Path.below? root path).getD path

/-- The manifests of a workspace in ascending order of their roots. The scan root has one, and the
first manifest of a root counts. -/
def workspaceManifests (manifests : List Manifest) : List Manifest :=
  let all := if manifests.any (·.root = "") then manifests else manifests ++ [{ root := "" }]
  let sorted := all.mergeSort fun a b => Text.atMost a.root b.root
  Text.dropRepeatsBy (·.root) sorted

/-- The files that belong to a root, with their paths relative to it. -/
def filesOf (roots : List String) (root : String) (files : List SourceFile) : List SourceFile :=
  (files.filter fun file => owningRoot roots file.path = root).map fun file =>
    { file with path := relativeTo root file.path }

/-- The settings for a root: only the entry points that belong to it count. -/
def settingsFor (roots : List String) (root : String) (settings : AnalysisSettings) :
    AnalysisSettings :=
  { settings with
    entryPoints := (settings.entryPoints.filter (owningRoot roots · = root)).map (relativeTo root) }

variable [Syntax.Parser]

/-- The metrics of one project of a workspace, with paths relative to the scan root. There are none
if no file belongs to it. -/
def projectMetrics? (roots : List String) (files : List SourceFile) (settings : AnalysisSettings)
    (manifest : Manifest) : Option (Metrics α) :=
  let own := filesOf roots manifest.root files
  if own.isEmpty then none
  else
    some <| (analyzeProject own manifest (settingsFor roots manifest.root settings)).below
      manifest.root

/-- The metrics of all projects of a workspace together. -/
def analyzeWorkspace (files : List SourceFile) (manifests : List Manifest)
    (settings : AnalysisSettings) : Metrics α :=
  let all := workspaceManifests manifests
  .mergeAll (all.filterMap (projectMetrics? (all.map (·.root)) files settings))

end ModuleAtlas
