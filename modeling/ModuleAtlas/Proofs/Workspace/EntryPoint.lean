import ModuleAtlas.Proofs.DeadExport
import ModuleAtlas.Proofs.Workspace.Accounts

/-!
# Entry points of a workspace

A configured entry point is a path relative to the scan root, and it is found again in the project
to which the file of that path belongs: the entry point and the file are handed to the same root and
lose the same front. So however the roots are nested, everything that an entry point leads to is
reachable, and its exports can be left out of the report. An entry point that is not the path of a
readable file has no effect (`entryPoints_analyzeWorkspace`).

* `Placed` : where a module of the workspace is found among the projects.
* `Placed.reaches_iff` : imports lead from project to project nowhere.
-/

namespace ModuleAtlas

open Relation (ReflTransGen)

variable {α : Type} [Average α] {files : List SourceFile} {manifests : List Manifest}
  {settings : AnalysisSettings} {roots : List String} {root path a b c d : String}
  {m m' : Manifest}

/-- The entry points for a root are those that belong to it. -/
theorem mem_entryPoints_settingsFor (hscan : "" ∈ roots)
    (howner : owningRoot roots (Path.under root path) = root) :
    path ∈ (settingsFor roots root settings).entryPoints ↔
      Path.under root path ∈ settings.entryPoints := by
  simp only [settingsFor, List.mem_map, List.mem_filter, decide_eq_true_eq]
  constructor
  · rintro ⟨entry, ⟨hentry, hroot⟩, rfl⟩
    rwa [under_relativeTo (containsPath_of_owningRoot_eq hscan hroot)]
  · intro hentry
    exact ⟨_, ⟨hentry, howner⟩, relativeTo_under root path⟩

section

variable [Syntax.Parser]

/-- The path of a readable file. -/
def IsModulePath (files : List SourceFile) (path : String) : Prop :=
  ∃ file ∈ files, file.isReadable = true ∧ file.path = path

/-- The graph of the modules that belong to the root of a manifest. -/
def groupGraph (files : List SourceFile) (manifests : List Manifest) (m : Manifest) : Graph :=
  projectGraph (filesOf (workspaceRoots manifests) m.root files) m

/-- A module of a workspace imports another one, within the project of both. -/
def WorkspaceEdge (files : List SourceFile) (manifests : List Manifest) (a b : String) : Prop :=
  ∃ m ∈ workspaceManifests manifests, ∃ c d,
    (groupGraph files manifests m).Edge c d ∧ Path.under m.root c = a ∧ Path.under m.root d = b

/-! ## Where a module is found -/

/-- The module `c` in the project of `m` is the module `a` of the workspace. -/
structure Placed (files : List SourceFile) (manifests : List Manifest) (m : Manifest)
    (c a : String) : Prop where
  manifest : m ∈ workspaceManifests manifests
  module : c ∈ (groupGraph files manifests m).ids
  under : Path.under m.root c = a

theorem closed_groupGraph (files : List SourceFile) (manifests : List Manifest) (m : Manifest) :
    (groupGraph files manifests m).Closed :=
  closed_projectGraph _ _

/-- The modules of a project are the readable files that belong to its root. -/
theorem mem_ids_groupGraph : c ∈ (groupGraph files manifests m).ids ↔
    owningRoot (workspaceRoots manifests) (Path.under m.root c) = m.root ∧
      IsModulePath files (Path.under m.root c) := by
  have hscan := scanRoot_mem_workspaceRoots manifests
  rw [groupGraph, ids_projectGraph, Project.mem_ids_ofFiles, filesOf_eq]
  constructor
  · rintro ⟨_, hmem, hreadable, rfl⟩
    obtain ⟨file, hfile, rfl⟩ := List.mem_map.mp hmem
    rw [List.mem_filter, decide_eq_true_eq] at hfile
    obtain ⟨hfile, howner⟩ := hfile
    have hcontains := containsPath_of_owningRoot_eq hscan howner
    have hpath : Path.under m.root (file.within m.root).path = file.path :=
      under_relativeTo hcontains
    rw [SourceFile.isReadable_within hcontains] at hreadable
    rw [hpath]
    exact ⟨howner, file, hfile, hreadable, rfl⟩
  · rintro ⟨howner, file, hfile, hreadable, hpath⟩
    rw [← hpath] at howner
    have hcontains := containsPath_of_owningRoot_eq hscan howner
    refine ⟨file.within m.root, ?_, ?_, ?_⟩
    · exact List.mem_map_of_mem (List.mem_filter.mpr ⟨hfile, decide_eq_true howner⟩)
    · rw [SourceFile.isReadable_within hcontains, hreadable]
    · show relativeTo m.root file.path = c
      rw [hpath, relativeTo_under]

namespace Placed

theorem owner (h : Placed files manifests m c a) :
    owningRoot (workspaceRoots manifests) a = m.root := by
  rw [← h.under]
  exact (mem_ids_groupGraph.mp h.module).1

/-- A module is found in one project and under one name. -/
theorem unique (h : Placed files manifests m c a) (h' : Placed files manifests m' d a) :
    m = m' ∧ c = d := by
  have hroot : m.root = m'.root := h.owner.symm.trans h'.owner
  have hsame : m = m' := List.inj_on_of_nodup_map (workspaceRoots_nodup manifests) h.manifest
    h'.manifest hroot
  subst hsame
  exact ⟨rfl, Path.under_injective m.root (h.under.trans h'.under.symm)⟩

end Placed

/-- The modules that are found in some project are the readable files of the workspace. -/
theorem exists_placed_iff : (∃ m c, Placed files manifests m c a) ↔ IsModulePath files a := by
  constructor
  · rintro ⟨m, c, h⟩
    rw [← h.under]
    exact (mem_ids_groupGraph.mp h.module).2
  · intro hfile
    obtain ⟨hroot, hcontains, -⟩ :=
      owningRoot_spec (scanRoot_mem_workspaceRoots manifests) a
    obtain ⟨m, hm, howner⟩ := List.mem_map.mp hroot
    rw [← howner] at hcontains
    have hunder := under_relativeTo hcontains
    refine ⟨m, relativeTo m.root a, hm, mem_ids_groupGraph.mpr ?_, hunder⟩
    rw [hunder]
    exact ⟨howner.symm, hfile⟩

/-! ## Imports stay within a project -/

namespace Placed

theorem edge_iff (h : Placed files manifests m c a) : WorkspaceEdge files manifests a b ↔
    ∃ d, (groupGraph files manifests m).Edge c d ∧ Placed files manifests m d b := by
  constructor
  · rintro ⟨m', hm', c', d, hedge, ha, hb⟩
    obtain ⟨hc', hd⟩ := closed_groupGraph _ _ _ hedge
    obtain ⟨rfl, rfl⟩ := h.unique ⟨hm', hc', ha⟩
    exact ⟨d, hedge, hm', hd, hb⟩
  · rintro ⟨d, hedge, hd⟩
    exact ⟨m, h.manifest, c, d, hedge, h.under, hd.under⟩

/-- What a module leads to in the workspace is what it leads to in its project. -/
theorem reaches_iff (h : Placed files manifests m c a) :
    ReflTransGen (WorkspaceEdge files manifests) a b ↔
      ∃ d, ReflTransGen (groupGraph files manifests m).Edge c d ∧ Placed files manifests m d b := by
  constructor
  · intro hpath
    induction hpath with
    | refl => exact ⟨c, .refl, h⟩
    | tail _ hedge ih =>
      obtain ⟨d, hreaches, hd⟩ := ih
      obtain ⟨next, hnext, hplaced⟩ := hd.edge_iff.mp hedge
      exact ⟨next, hreaches.tail hnext, hplaced⟩
  · rintro ⟨d, hreaches, hd⟩
    induction hreaches generalizing b with
    | refl =>
      obtain rfl : a = b := h.under.symm.trans hd.under
      exact .refl
    | tail _ hedge ih =>
      have hmid := (closed_groupGraph _ _ _ hedge).1
      have hplaced : Placed files manifests m _ _ := ⟨h.manifest, hmid, rfl⟩
      exact (ih hplaced).tail (hplaced.edge_iff.mpr ⟨_, hedge, hd⟩)

end Placed

/-! ## The entry points of a project -/

/-- A module is a configured entry point of its project if it is one of the workspace. -/
theorem Placed.mem_entryPoints_iff (h : Placed files manifests m c a) :
    c ∈ (settingsFor (workspaceRoots manifests) m.root settings).entryPoints ↔
      a ∈ settings.entryPoints := by
  have howner := h.owner
  rw [← h.under] at howner ⊢
  exact mem_entryPoints_settingsFor (scanRoot_mem_workspaceRoots manifests) howner

/-- A configured entry point is a seed of its project. -/
theorem Placed.seed (h : Placed files manifests m c a) (hentry : a ∈ settings.entryPoints) :
    (groupGraph files manifests m).Seed
      (settingsFor (workspaceRoots manifests) m.root settings).entryPoints c :=
  ⟨h.module, Or.inl (h.mem_entryPoints_iff.mpr hentry)⟩

/-! ## The findings about a module -/

/-- A module is unreachable in the workspace exactly if it is in its project. -/
theorem Placed.mem_unreachable_iff (h : Placed files manifests m c a) :
    a ∈ (analyzeWorkspace files manifests settings : Metrics α).unreachable ↔
      c ∈ (groupGraph files manifests m).unreachable
        (settingsFor (workspaceRoots manifests) m.root settings).entryPoints := by
  have hproject : ∀ m : Manifest,
      (projectMetrics (workspaceRoots manifests) files settings m : Metrics α).unreachable
        = ((groupGraph files manifests m).unreachable
            (settingsFor (workspaceRoots manifests) m.root settings).entryPoints).map
              (Path.under m.root) := by
    intro m
    rw [projectMetrics, Metrics.below_eq_mapPaths, Metrics.mapPaths, unreachable_analyzeProject]
    rfl
  rw [flatMap_analyzeWorkspace Metrics.unreachable rfl (fun _ _ => rfl), List.mem_flatMap]
  constructor
  · rintro ⟨m', hm', ha⟩
    rw [hproject] at ha
    obtain ⟨d, hd, hunder⟩ := List.mem_map.mp ha
    obtain ⟨rfl, rfl⟩ := h.unique ⟨hm', (List.mem_filter.mp hd).1, hunder⟩
    exact hd
  · intro hc
    refine ⟨m, h.manifest, ?_⟩
    rw [hproject, ← h.under]
    exact List.mem_map_of_mem hc

/-- If the exports of entry points are left out, none is reported of a configured one. -/
theorem Placed.not_mem_deadExports (h : Placed files manifests m c a)
    (hentry : a ∈ settings.entryPoints) (hignore : settings.ignoreEntryExports = true) :
    ∀ e ∈ (analyzeWorkspace files manifests settings : Metrics α).deadExports, e.module ≠ a := by
  rw [flatMap_analyzeWorkspace Metrics.deadExports rfl (fun _ _ => rfl)]
  intro e he hmodule
  obtain ⟨m', hm', he⟩ := List.mem_flatMap.mp he
  rw [projectMetrics, Metrics.below_eq_mapPaths, Metrics.mapPaths, deadExports_analyzeProject] at he
  obtain ⟨x, hx, rfl⟩ := List.mem_map.mp he
  have hid : x.module ∈ (groupGraph files manifests m').ids := by
    have hmem := Project.module_mem_ids_of_mem_deadExports hx
    rwa [ids_linkedProject, ← ids_projectGraph _ m'] at hmem
  obtain ⟨rfl, rfl⟩ := h.unique ⟨hm', hid, hmodule⟩
  -- the module is a seed of its project, and therefore exempt
  have hclosed := closed_groupGraph files manifests m
  obtain ⟨-, hexempt, -⟩ := (Project.mem_deadExports hclosed).mp hx
  exact hexempt (Or.inl ⟨hignore, (Graph.mem_entryPoints hclosed).mpr (h.seed hentry)⟩)

/-! ## Configured entry points -/

/-- Configured entry points that are not paths of readable files have no effect. -/
theorem analyzeWorkspace_congr_entryPoints {entries : List String}
    (h : ∀ path, IsModulePath files path → (path ∈ entries ↔ path ∈ settings.entryPoints)) :
    (analyzeWorkspace files manifests { settings with entryPoints := entries } : Metrics α)
      = analyzeWorkspace files manifests settings := by
  rw [analyzeWorkspace_eq, analyzeWorkspace_eq]
  refine congrArg Metrics.mergeAll (List.filterMap_congr fun m hm => ?_)
  rw [projectMetrics?_eq, projectMetrics?_eq, projectMetrics, projectMetrics]
  have hagree : AnalysisSettings.AgreeOn
      (Project.ofFiles (filesOf (workspaceRoots manifests) m.root files)).ids
      (settingsFor (workspaceRoots manifests) m.root { settings with entryPoints := entries })
      (settingsFor (workspaceRoots manifests) m.root settings) := by
    refine ⟨fun c hc => ?_, rfl⟩
    rw [← ids_projectGraph _ m] at hc
    have hplaced : Placed files manifests m c (Path.under m.root c) := ⟨hm, hc, rfl⟩
    rw [hplaced.mem_entryPoints_iff, hplaced.mem_entryPoints_iff]
    exact h _ (exists_placed_iff.mp ⟨m, c, hplaced⟩)
  rw [analyzeProject_congr_settings m hagree]

/-- However the roots of a workspace are nested, nothing is unreachable that a configured entry point
leads to, and none of its own exports is reported if those of entry points are left out. Entry points
that are not paths of readable files have no effect. -/
theorem entryPoints_analyzeWorkspace (files : List SourceFile) (manifests : List Manifest)
    (settings : AnalysisSettings) :
    (∀ entry ∈ settings.entryPoints, IsModulePath files entry →
      (∀ id, ReflTransGen (WorkspaceEdge files manifests) entry id →
        id ∉ (analyzeWorkspace files manifests settings : Metrics α).unreachable) ∧
      (settings.ignoreEntryExports = true →
        ∀ e ∈ (analyzeWorkspace files manifests settings : Metrics α).deadExports,
          e.module ≠ entry)) ∧
    ∀ entries : List String,
      (∀ path, IsModulePath files path → (path ∈ entries ↔ path ∈ settings.entryPoints)) →
      (analyzeWorkspace files manifests { settings with entryPoints := entries } : Metrics α)
        = analyzeWorkspace files manifests settings := by
  refine ⟨fun entry hentry hmodule => ?_, fun entries h => analyzeWorkspace_congr_entryPoints h⟩
  obtain ⟨m, c, hplaced⟩ := exists_placed_iff.mpr hmodule
  refine ⟨fun id hreaches => ?_, hplaced.not_mem_deadExports hentry⟩
  obtain ⟨d, hpath, hd⟩ := hplaced.reaches_iff.mp hreaches
  rw [hd.mem_unreachable_iff, Graph.mem_unreachable (closed_groupGraph _ _ _)]
  rintro ⟨-, hnone⟩
  exact hnone ⟨c, hplaced.seed hentry, hpath⟩

end

/-- A program whose name is not conventional and a package that it imports, in the innermost of the
nested projects, and the same program in a directory named like the root of that project but
longer. -/
def toolFiles : List SourceFile :=
  [{ path := "apps/web/cli/run.go", language := .go,
     content := "package cli\nimport \"../lib\"\n".toUTF8 },
   { path := "apps/web/lib/core.go", language := .go, content := "package lib".toUTF8 },
   { path := "apps/webx/cli/run.go", language := .go, content := "package cli".toUTF8 }]

/-- Settings with the program as an entry point. -/
def toolSettings : AnalysisSettings :=
  { entryPoints := ["apps/web/cli/run.go"], ignoreEntryExports := true }

/-- The package is reachable, and what else is said of the program. Its path relative to its root and
the root itself are no entry points. -/
theorem entryPoints_toolFiles :
    "apps/web/cli/run.go" ∈ toolSettings.entryPoints ∧
    IsModulePath toolFiles "apps/web/cli/run.go" ∧
    WorkspaceEdge toolFiles nestedManifests "apps/web/cli/run.go" "apps/web/lib/core.go" ∧
    "apps/web/lib/core.go" ∉
      (analyzeWorkspace toolFiles nestedManifests toolSettings : Metrics ℚ).unreachable ∧
    toolSettings.ignoreEntryExports = true ∧
    (∀ e ∈ (analyzeWorkspace toolFiles nestedManifests toolSettings : Metrics ℚ).deadExports,
      e.module ≠ "apps/web/cli/run.go") ∧
    (analyzeWorkspace toolFiles nestedManifests
        { toolSettings with entryPoints := ["cli/run.go", "apps/web/cli/run.go", "apps/web"] } :
          Metrics ℚ)
      = analyzeWorkspace toolFiles nestedManifests toolSettings := by
  have hentry : "apps/web/cli/run.go" ∈ toolSettings.entryPoints := by decide
  have hmodule : IsModulePath toolFiles "apps/web/cli/run.go" :=
    ⟨_, List.mem_cons_self, by decide +kernel, rfl⟩
  have hedge : WorkspaceEdge toolFiles nestedManifests "apps/web/cli/run.go"
      "apps/web/lib/core.go" := by
    refine ⟨{ root := "apps/web" }, ?_, "cli/run.go", "lib/core.go", ?_, by decide, by decide⟩
    · have hroot : "apps/web" ∈ workspaceRoots nestedManifests := by
        rw [workspaceRoots_nestedManifests]
        decide
      exact List.mem_of_find?_eq_some (find?_workspaceManifests_of_mem hroot)
    · rw [groupGraph, workspaceRoots_nestedManifests]
      show _ ∈ Graph.dependencies _ _
      decide +kernel
  have hothers : ∀ path, IsModulePath toolFiles path →
      (path ∈ ["cli/run.go", "apps/web/cli/run.go", "apps/web"] ↔
        path ∈ toolSettings.entryPoints) := by
    rintro path ⟨file, hfile, -, rfl⟩
    revert file
    decide
  obtain ⟨hfound, hignored⟩ := entryPoints_analyzeWorkspace (α := ℚ) toolFiles nestedManifests
    toolSettings
  obtain ⟨hreachable, hexports⟩ := hfound _ hentry hmodule
  exact ⟨hentry, hmodule, hedge, hreachable _ (.single hedge), rfl, hexports rfl,
    hignored _ hothers⟩

end ModuleAtlas
