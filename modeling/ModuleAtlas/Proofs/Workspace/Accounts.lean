import ModuleAtlas.Grammar
import ModuleAtlas.Proofs.Workspace.Partition

/-!
# What becomes of the files of a workspace

The modules of all graphs are the readable files of the workspace, and the warnings are about the
rejected ones (`workspaceModules_perm`, `map_path_warnings_perm`). So no file is lost or counted
twice: every source file is one module or has one warning (`accounts_analyzeWorkspace`).
-/

namespace ModuleAtlas

variable {α : Type} [Average α] {roots : List String} {root : String} {file : SourceFile}
  {files : List SourceFile}

/-- A file is in the group of its root only. -/
theorem mem_map_under_filesOf (hscan : "" ∈ roots) (hfile : file ∈ files) :
    file ∈ (filesOf roots root files).map (·.under root) ↔ owningRoot roots file.path = root := by
  rw [map_under_filesOf hscan, List.mem_filter, decide_eq_true_eq]
  exact and_iff_right hfile

/-- An item of two lists that have no item twice, not even together, is once in one of them. -/
theorem count_eq_one_or {first second : List String} {item : String}
    (hnodup : (first ++ second).Nodup) (hitem : item ∈ first ++ second) :
    (first.count item = 1 ∧ second.count item = 0) ∨
      (first.count item = 0 ∧ second.count item = 1) := by
  have hone := List.count_eq_one_of_mem hnodup hitem
  rw [List.count_append] at hone
  omega

section

variable [Syntax.Parser]

/-! ## Modules and warnings of a workspace -/

/-- The modules of the graphs of all groups, with paths relative to the scan root. -/
def workspaceModules (files : List SourceFile) (manifests : List Manifest) : List String :=
  (workspaceManifests manifests).flatMap fun m =>
    (projectGraph (filesOf (workspaceRoots manifests) m.root files) m).ids.map (Path.under m.root)

/-- The modules that are counted are those of the graphs. -/
theorem moduleCount_analyzeWorkspace (files : List SourceFile) (manifests : List Manifest)
    (settings : AnalysisSettings) :
    (analyzeWorkspace files manifests settings : Metrics α).moduleCount
      = (workspaceModules files manifests).length := by
  rw [sum_analyzeWorkspace Metrics.moduleCount rfl (fun _ _ => rfl), workspaceModules,
    List.length_flatMap]
  refine congrArg List.sum (List.map_congr_left fun m _ => ?_)
  rw [projectMetrics, Metrics.below_eq_mapPaths, List.length_map]
  exact moduleCount_analyzeProject _ _ _

/-- The modules of a workspace are its readable files. -/
theorem workspaceModules_perm (hpaths : (files.map (·.path)).Nodup) (manifests : List Manifest) :
    (workspaceModules files manifests).Perm
      ((files.filter SourceFile.isReadable).map (·.path)) := by
  have hscan := scanRoot_mem_workspaceRoots manifests
  refine List.Perm.trans (List.Perm.flatMap_left _ fun m _ => ?_)
    (flatMap_map_path_perm SourceFile.isReadable_within manifests files)
  rw [ids_projectGraph]
  exact (Project.ids_ofFiles_perm (nodup_map_path_filesOf hscan hpaths m.root)).map _

/-- The warnings of a workspace are about its rejected files. -/
theorem map_path_warnings_perm (files : List SourceFile) (manifests : List Manifest)
    (settings : AnalysisSettings) :
    ((analyzeWorkspace files manifests settings : Metrics α).warnings.map (·.path)).Perm
      ((files.filter SourceFile.isRejected).map (·.path)) := by
  rw [flatMap_analyzeWorkspace Metrics.warnings rfl (fun _ _ => rfl), List.map_flatMap]
  refine List.Perm.trans (List.Perm.flatMap_left _ fun m _ => ?_)
    (flatMap_map_path_perm SourceFile.isRejected_within manifests files)
  have hgroup : ((projectMetrics (workspaceRoots manifests) files settings m :
        Metrics α).warnings.map (·.path))
      = ((Project.rejections (filesOf (workspaceRoots manifests) m.root files)).map (·.path)).map
          (Path.under m.root) := by
    rw [projectMetrics, Metrics.below_eq_mapPaths]
    simp only [Metrics.mapPaths, warnings_analyzeProject, List.map_map]
    rfl
  rw [hgroup]
  exact (Project.map_path_rejections_perm _).map _

/-! ## The account of a workspace -/

/-- The modules and warnings of a workspace are its source files. -/
theorem workspaceModules_append_warnings_perm (hpaths : (files.map (·.path)).Nodup)
    (manifests : List Manifest) (settings : AnalysisSettings) :
    (workspaceModules files manifests
      ++ (analyzeWorkspace files manifests settings : Metrics α).warnings.map (·.path)).Perm
      ((Project.sources files).map (·.path)) := by
  have hboth := (workspaceModules_perm hpaths manifests).append
    (map_path_warnings_perm (α := α) files manifests settings)
  rw [← List.map_append] at hboth
  exact hboth.trans ((Project.readable_append_rejected_perm files).map _)

/-- A workspace has each file in the group of one root and accounts for each source file. -/
structure Accounts (files : List SourceFile) (manifests : List Manifest) (metrics : Metrics α) :
    Prop where
  /-- no root has two groups -/
  roots_nodup : (workspaceRoots manifests).Nodup
  mem_roots : ∀ root, root ∈ workspaceRoots manifests ↔ root = "" ∨ root ∈ manifests.map (·.root)
  /-- the groups, put back below their roots, are the files -/
  groups : ((workspaceRoots manifests).flatMap fun root =>
    (filesOf (workspaceRoots manifests) root files).map (·.under root)).Perm files
  /-- a file is in the group of the longest root that contains it -/
  group : ∀ file ∈ files, ∀ root,
    file ∈ (filesOf (workspaceRoots manifests) root files).map (·.under root) ↔
      root ∈ workspaceRoots manifests ∧ IsBelow root file.path ∧
        ∀ other ∈ workspaceRoots manifests, other ≠ root → IsBelow other file.path →
          other.length < root.length
  group_unique : ∀ file ∈ files,
    ∃! root, file ∈ (filesOf (workspaceRoots manifests) root files).map (·.under root)
  /-- a path is its root and the path within the group together -/
  under_within : ∀ file ∈ files, ∀ root, owningRoot (workspaceRoots manifests) file.path = root →
    file.within root ∈ filesOf (workspaceRoots manifests) root files ∧
      Path.under root (file.within root).path = file.path
  /-- the modules that are counted are those of the graphs -/
  moduleCount : metrics.moduleCount = (workspaceModules files manifests).length
  total : metrics.moduleCount + metrics.warnings.length = (Project.sources files).length
  /-- no module and no warning is about anything but a source file -/
  sources : (workspaceModules files manifests ++ metrics.warnings.map (·.path)).Perm
    ((Project.sources files).map (·.path))
  /-- a source file is one module and has no warning, or has one warning and is no module -/
  once : ∀ file ∈ Project.sources files,
    ((workspaceModules files manifests).count file.path = 1 ∧
      (metrics.warnings.map (·.path)).count file.path = 0) ∨
    ((workspaceModules files manifests).count file.path = 0 ∧
      (metrics.warnings.map (·.path)).count file.path = 1)

/-- No file of a workspace is lost or counted twice. -/
theorem accounts_analyzeWorkspace (hpaths : (files.map (·.path)).Nodup) (manifests : List Manifest)
    (settings : AnalysisSettings) :
    Accounts files manifests (analyzeWorkspace files manifests settings : Metrics α) := by
  have hscan := scanRoot_mem_workspaceRoots manifests
  have hsources := workspaceModules_append_warnings_perm (α := α) hpaths manifests settings
  have hcount := moduleCount_analyzeWorkspace (α := α) files manifests settings
  have hnodup : ((Project.sources files).map (·.path)).Nodup :=
    nodup_map_path_filter hpaths _
  refine
    { roots_nodup := workspaceRoots_nodup manifests
      mem_roots := fun root => mem_workspaceRoots
      groups := flatMap_filesOf_perm manifests files
      group := fun file hfile root => ?_
      group_unique := fun file hfile => ?_
      under_within := fun file hfile root hroot => ?_
      moduleCount := hcount
      total := ?_
      sources := hsources
      once := fun file hfile => ?_ }
  · rw [mem_map_under_filesOf hscan hfile, owningRoot_eq_iff_lt hscan]
  · refine ⟨owningRoot (workspaceRoots manifests) file.path, ?_, fun root hroot => ?_⟩
    · exact (mem_map_under_filesOf hscan hfile).mpr rfl
    · exact ((mem_map_under_filesOf hscan hfile).mp hroot).symm
  · refine ⟨?_, under_relativeTo (containsPath_of_owningRoot_eq hscan hroot)⟩
    rw [filesOf_eq]
    exact List.mem_map_of_mem (List.mem_filter.mpr ⟨hfile, decide_eq_true hroot⟩)
  · have hlength := hsources.length_eq
    rw [List.length_append, List.length_map, List.length_map] at hlength
    rw [hcount, hlength]
  · have hpath : file.path ∈ (Project.sources files).map (·.path) := List.mem_map_of_mem hfile
    exact count_eq_one_or (hsources.nodup_iff.mpr hnodup) (hsources.mem_iff.mpr hpath)

end

/-- Files of nested projects, one of them in a directory named like a root but longer. -/
def nestedFiles : List SourceFile :=
  [{ path := "apps/web/main.go", language := .go, content := "package main".toUTF8 },
   { path := "apps/web/main_test.go", language := .go, content := "package main".toUTF8,
     fileClass := .test },
   { path := "apps/tool.go", language := .go, content := "package".toUTF8 },
   { path := "appsx/main.go", language := .go, content := "package main".toUTF8 }]

/-- The manifests of those projects. -/
def nestedManifests : List Manifest := [{ root := "apps" }, { root := "apps/web" }]

theorem workspaceRoots_nestedManifests :
    workspaceRoots nestedManifests = ["", "apps", "apps/web"] := by
  refine (workspaceRoots_pairwise nestedManifests).eq_of_mem_iff (by decide) fun root => ?_
  rw [mem_workspaceRoots]
  simp [nestedManifests]

theorem accounts_nestedFiles : (nestedFiles.map (·.path)).Nodup ∧
    Accounts nestedFiles nestedManifests
      (analyzeWorkspace nestedFiles nestedManifests {} : Metrics ℚ) ∧
    (analyzeWorkspace nestedFiles nestedManifests {} : Metrics ℚ).moduleCount
      + (analyzeWorkspace nestedFiles nestedManifests {} : Metrics ℚ).warnings.length = 3 := by
  have hpaths : (nestedFiles.map (·.path)).Nodup := by decide
  have haccounts := accounts_analyzeWorkspace (α := ℚ) hpaths nestedManifests {}
  exact ⟨hpaths, haccounts, haccounts.total⟩

end ModuleAtlas
