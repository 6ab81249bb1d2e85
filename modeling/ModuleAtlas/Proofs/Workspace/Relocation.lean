import ModuleAtlas.Proofs.Workspace.Partition

/-!
# Moving a project to another directory

A project that stands alone in a directory of a workspace has the metrics that it has at the scan
root, with that directory in front of every path (`analyzeWorkspace_moved`). The scan root is a root
in any case, but without files of its own it adds nothing. So there is no difference between the
analysis of one project and that of a workspace with its manifest alone.

The files and the entry points of the project are routed to its root by the same rule
(`owningRoot_under`) and stripped by the same function, which gives back what was put below the
root (`filesOf_under`, `settingsFor_under`). The root in a manifest plays no part in what imports
refer to (`analyzeProject_withRoot`).
-/

namespace ModuleAtlas

variable {α : Type} [Average α] {roots : List String} {root : String} {files : List SourceFile}
  {settings : AnalysisSettings}

/-! ## The root in a manifest -/

namespace Resolver

/-- Where an import leads does not depend on the root that the manifest is for. -/
theorem resolve_withRoot (paths : List String) (manifest : Manifest) (root : String) (i : Import)
    (importer : String) (language : Language) :
    (ofFiles paths { manifest with root := root }).resolve i importer language
      = (ofFiles paths manifest).resolve i importer language := by
  cases language <;> rfl

end Resolver

theorem Project.link_withRoot (p : Project) (manifest : Manifest) (root : String) :
    p.link (p.resolver { manifest with root := root }) = p.link (p.resolver manifest) := by
  unfold Project.link Project.resolver
  simp only [Resolver.resolve_withRoot]

/-- The metrics of a project do not depend on the root in its manifest. -/
theorem analyzeProject_withRoot [Syntax.Parser] (files : List SourceFile) (manifest : Manifest)
    (root : String) (settings : AnalysisSettings) :
    (analyzeProject files { manifest with root := root } settings : Metrics α)
      = analyzeProject files manifest settings := by
  unfold analyzeProject
  dsimp only
  rw [Project.link_withRoot]
  -- the exports of a Go package are those of its directory, whatever the manifest says
  rfl

/-! ## Paths below one root -/

/-- Settings for a project in a directory of a workspace. -/
def AnalysisSettings.under (root : String) (settings : AnalysisSettings) : AnalysisSettings :=
  { settings with entryPoints := settings.entryPoints.map (Path.under root) }

theorem Path.under_scanRoot : Path.under "" = id := rfl

theorem SourceFile.within_under (root : String) (file : SourceFile) :
    (file.under root).within root = file := by
  unfold SourceFile.within SourceFile.under
  rw [relativeTo_under]

/-- Next to the scan root, a single root owns every path below it. -/
theorem owningRoot_under (hscan : "" ∈ roots) (hroot : root ∈ roots)
    (honly : ∀ other ∈ roots, other = "" ∨ other = root) (path : String) :
    owningRoot roots (Path.under root path) = root := by
  refine (owningRoot_eq_iff hscan).mpr ⟨hroot, containsPath_iff.mpr ⟨path, rfl⟩, ?_⟩
  intro other hother _
  rcases honly other hother with hempty | hsame
  · simp [hempty]
  · rw [hsame]

section

variable (howner : ∀ path, owningRoot roots (Path.under root path) = root)
include howner

/-- The group of the root is the project as it was before it was moved there. -/
theorem filesOf_under (files : List SourceFile) :
    filesOf roots root (files.map (·.under root)) = files := by
  have hall : (files.map (·.under root)).filter (fun file => owningRoot roots file.path = root)
      = files.map (·.under root) := by
    refine List.filter_eq_self.mpr fun moved hmoved => ?_
    obtain ⟨file, -, rfl⟩ := List.mem_map.mp hmoved
    exact decide_eq_true (howner file.path)
  rw [filesOf_eq, hall, List.map_map]
  refine (List.map_congr_left fun file _ => ?_).trans (List.map_id files)
  exact SourceFile.within_under root file

theorem settingsFor_under (settings : AnalysisSettings) :
    settingsFor roots root (settings.under root) = settings := by
  have hall : (settings.entryPoints.map (Path.under root)).filter (owningRoot roots · = root)
      = settings.entryPoints.map (Path.under root) := by
    refine List.filter_eq_self.mpr fun moved hmoved => ?_
    obtain ⟨entry, -, rfl⟩ := List.mem_map.mp hmoved
    exact decide_eq_true (howner entry)
  have hstrip : (settings.entryPoints.map (Path.under root)).map (relativeTo root)
      = settings.entryPoints := by
    rw [List.map_map]
    refine (List.map_congr_left fun entry _ => ?_).trans (List.map_id _)
    exact relativeTo_under root entry
  unfold settingsFor AnalysisSettings.under
  simp only [hall, hstrip]

/-- All files belong to the root, so no other root has a group. -/
theorem projectMetrics?_under_eq_none [Syntax.Parser] {manifest : Manifest} (hne : manifest.root ≠ root) :
    (projectMetrics? roots (files.map (·.under root)) settings manifest : Option (Metrics α))
      = none := by
  have hgroup : filesOf roots manifest.root (files.map (·.under root)) = [] := by
    rw [filesOf_eq, List.map_eq_nil_iff, List.filter_eq_nil_iff]
    intro moved hmoved
    obtain ⟨file, -, rfl⟩ := List.mem_map.mp hmoved
    have hother : owningRoot roots (file.under root).path ≠ manifest.root := by
      intro heq
      exact hne (heq.symm.trans (howner file.path))
    simpa using hother
  rw [projectMetrics?_eq, hgroup]
  rfl

end

/-! ## A workspace with one project -/

/-- Where only the items with one label count, and only one item has that label, it counts alone. -/
theorem filterMap_eq_toList_of_find? {ι κ β : Type} [DecidableEq κ] {items : List ι} {item : ι}
    {label : ι → κ} {k : κ} {f : ι → Option β} (hlabels : (items.map label).Nodup)
    (hfind : items.find? (label · = k) = some item) (hother : ∀ i, label i ≠ k → f i = none) :
    items.filterMap f = (f item).toList := by
  induction items with
  | nil => cases hfind
  | cons i rest ih =>
    obtain ⟨hi, hrest⟩ := List.nodup_cons.mp hlabels
    rw [List.find?_cons] at hfind
    by_cases hlabel : label i = k
    · have hsame : i = item := by simpa [hlabel] using hfind
      have hnone : rest.filterMap f = [] := by
        refine List.filterMap_eq_nil_iff.mpr fun j hj => hother j fun hjk => hi ?_
        rw [hlabel, ← hjk]
        exact List.mem_map_of_mem hj
      rw [← hsame, List.filterMap_cons, hnone]
      cases f i <;> rfl
    · have hfind : rest.find? (label · = k) = some item := by simpa [hlabel] using hfind
      rw [List.filterMap_cons_none (hother i hlabel)]
      exact ih hrest hfind

variable [Syntax.Parser]

/-- A group without files has the metrics of a merge of nothing. -/
theorem mergeAll_projectMetrics? (manifest : Manifest) :
    .mergeAll (projectMetrics? roots files settings manifest).toList
      = (projectMetrics roots files settings manifest : Metrics α) := by
  rw [projectMetrics?_eq]
  cases hfiles : (filesOf roots manifest.root files).isEmpty with
  | true => exact (projectMetrics_of_isEmpty hfiles).symm
  | false => rfl

/-- A project that was moved to a directory has the same metrics below that directory. -/
theorem analyzeWorkspace_moved (files : List SourceFile) (manifest : Manifest)
    (settings : AnalysisSettings) (root : String) :
    (analyzeWorkspace (files.map (·.under root)) [{ manifest with root := root }]
        (settings.under root) : Metrics α)
      = (analyzeProject files manifest settings).below root := by
  let moved : Manifest := { manifest with root := root }
  have hscan := scanRoot_mem_workspaceRoots [moved]
  have hroot : root ∈ workspaceRoots [moved] := by simp [mem_workspaceRoots, moved]
  have honly : ∀ other ∈ workspaceRoots [moved], other = "" ∨ other = root := by
    intro other hother
    simpa [mem_workspaceRoots, moved] using hother
  have howner := owningRoot_under hscan hroot honly
  have hfind : (workspaceManifests [moved]).find? (·.root = root) = some moved := by
    have hfound := find?_workspaceManifests_of_mem hroot
    simpa [manifestOf, moved] using hfound
  have hgroups : (workspaceManifests [moved]).filterMap
        (projectMetrics? (workspaceRoots [moved]) (files.map (·.under root)) (settings.under root))
      = (projectMetrics? (workspaceRoots [moved]) (files.map (·.under root)) (settings.under root)
          moved : Option (Metrics α)).toList := by
    refine filterMap_eq_toList_of_find? (workspaceRoots_nodup [moved]) hfind fun other hne => ?_
    exact projectMetrics?_under_eq_none howner hne
  calc (analyzeWorkspace (files.map (·.under root)) [moved] (settings.under root) : Metrics α)
      = projectMetrics (workspaceRoots [moved]) (files.map (·.under root)) (settings.under root)
          moved := by
        rw [analyzeWorkspace_eq, hgroups, mergeAll_projectMetrics?]
    _ = (analyzeProject files moved settings).below root := by
        rw [projectMetrics, filesOf_under howner, settingsFor_under howner]
    _ = (analyzeProject files manifest settings).below root := by
        rw [analyzeProject_withRoot]

/-- A project can be analysed where it stands or in a directory of a workspace, and by itself or as
the only project of a workspace. -/
theorem analyzeWorkspace_under (files : List SourceFile) (manifest : Manifest)
    (settings : AnalysisSettings) :
    (∀ root, (analyzeWorkspace (files.map (·.under root)) [{ manifest with root := root }]
        (settings.under root) : Metrics α)
      = (analyzeProject files manifest settings).below root) ∧
    (analyzeWorkspace files [{ manifest with root := "" }] settings : Metrics α)
      = analyzeProject files manifest settings := by
  refine ⟨analyzeWorkspace_moved files manifest settings, ?_⟩
  have hmoved := analyzeWorkspace_moved (α := α) files manifest settings ""
  have hfiles : files.map (·.under "") = files := List.map_id files
  have hsettings : settings.under "" = settings := by
    unfold AnalysisSettings.under
    rw [Path.under_scanRoot, List.map_id]
  rwa [hfiles, hsettings] at hmoved

end ModuleAtlas
