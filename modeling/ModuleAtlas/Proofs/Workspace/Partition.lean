import ModuleAtlas.Proofs.Analysis
import ModuleAtlas.Proofs.Grouping
import ModuleAtlas.Proofs.Workspace.Root

/-!
# The groups of a workspace

The files of a workspace are shared out among its roots: each file is in the group of the root to
which its path belongs, and put back below that root it is the file again (`flatMap_filesOf_perm`).
The metrics of the workspace are those of all groups together, whether groups without files are
analysed or left out. So the lists of the workspace are those of the groups one after the other
(`flatMap_analyzeWorkspace`), and its counts are sums.

* `filter_filesOf` : files can be selected before they are grouped or afterwards.
* `regular_projectMetrics`, `within_projectMetrics` : the metrics of a group are regular, and what is
  found is about paths that belong to its root.
-/

namespace ModuleAtlas

variable {α β : Type} [Average α] {roots : List String} {root : String} {file : SourceFile}
  {files : List SourceFile} {manifests : List Manifest} {settings : AnalysisSettings}

/-! ## Files below a root -/

namespace SourceFile

/-- A file as it is named in the project with a root. -/
def within (root : String) (file : SourceFile) : SourceFile :=
  { file with path := relativeTo root file.path }

/-- A file of the project with a root as it is named in the workspace. -/
def under (root : String) (file : SourceFile) : SourceFile :=
  { file with path := Path.under root file.path }

theorem under_within (h : containsPath root file.path = true) :
    (file.within root).under root = file := by
  rw [under, within, under_relativeTo h]

variable [Syntax.Parser]

theorem isOk_extract_within (h : containsPath root file.path = true) :
    (file.within root).extract.isOk = file.extract.isOk := by
  have hunder := isOk_extract_under file root (relativeTo root file.path)
  rw [under_relativeTo h] at hunder
  exact hunder.symm

/-- A file can be read below its root if it can be read at all. -/
theorem isReadable_within (h : containsPath root file.path = true) :
    (file.within root).isReadable = file.isReadable := by
  rw [isReadable, isReadable, isOk_extract_within h]
  rfl

theorem isRejected_within (h : containsPath root file.path = true) :
    (file.within root).isRejected = file.isRejected := by
  rw [isRejected, isRejected, isOk_extract_within h]
  rfl

end SourceFile

/-! ## Groups -/

theorem filesOf_eq (roots : List String) (root : String) (files : List SourceFile) :
    filesOf roots root files
      = (files.filter fun file => owningRoot roots file.path = root).map (·.within root) := rfl

theorem containsPath_of_owningRoot_eq {path : String} (hscan : "" ∈ roots)
    (h : owningRoot roots path = root) : containsPath root path = true :=
  ((owningRoot_eq_iff hscan).mp h).2.1

/-- A group put back below its root has the files whose paths belong to the root. -/
theorem map_under_filesOf (hscan : "" ∈ roots) (root : String) (files : List SourceFile) :
    (filesOf roots root files).map (·.under root)
      = files.filter fun file => owningRoot roots file.path = root := by
  rw [filesOf_eq, List.map_map]
  refine (List.map_congr_left fun file hfile => ?_).trans (List.map_id _)
  have howner : owningRoot roots file.path = root := by simpa using (List.mem_filter.mp hfile).2
  exact SourceFile.under_within (containsPath_of_owningRoot_eq hscan howner)

theorem map_under_map_path (root : String) (files : List SourceFile) :
    (files.map (·.path)).map (Path.under root) = (files.map (·.under root)).map (·.path) := by
  rw [List.map_map, List.map_map]
  rfl

/-- Different files of a group have different paths. -/
theorem nodup_map_path_filesOf (hscan : "" ∈ roots) (hpaths : (files.map (·.path)).Nodup)
    (root : String) : ((filesOf roots root files).map (·.path)).Nodup := by
  -- stripping the root is injective: with the root in front, the paths are those of the workspace
  refine List.Nodup.of_map (Path.under root) ?_
  rw [map_under_map_path, map_under_filesOf hscan]
  exact nodup_map_path_filter hpaths _

/-- Files can be selected before they are grouped or afterwards, if it does not depend on the root. -/
theorem filter_filesOf (hscan : "" ∈ roots) {p : SourceFile → Bool}
    (hp : ∀ {root : String} {file : SourceFile}, containsPath root file.path = true →
      p (file.within root) = p file) (root : String) (files : List SourceFile) :
    (filesOf roots root files).filter p = filesOf roots root (files.filter p) := by
  rw [filesOf_eq, filesOf_eq, List.filter_map, List.filter_comm, List.filter_filter,
    List.filter_filter]
  refine congrArg _ (List.filter_congr fun file _ => ?_)
  by_cases howner : owningRoot roots file.path = root
  · rw [Function.comp_apply, hp (containsPath_of_owningRoot_eq hscan howner)]
  · simp [howner]

/-- All groups together, put back below their roots, have every file once. -/
theorem flatMap_filesOf_perm (manifests : List Manifest) (files : List SourceFile) :
    ((workspaceRoots manifests).flatMap fun root =>
      (filesOf (workspaceRoots manifests) root files).map (·.under root)).Perm files := by
  have hscan := scanRoot_mem_workspaceRoots manifests
  have howner : ∀ file ∈ files,
      owningRoot (workspaceRoots manifests) file.path ∈ workspaceRoots manifests :=
    fun file _ => (owningRoot_spec hscan file.path).1
  simp only [map_under_filesOf hscan]
  exact flatMap_filter_perm _ (workspaceRoots_nodup manifests) howner

/-- The same of the paths of selected files, group by group. -/
theorem flatMap_map_path_perm {p : SourceFile → Bool}
    (hp : ∀ {root : String} {file : SourceFile}, containsPath root file.path = true →
      p (file.within root) = p file) (manifests : List Manifest) (files : List SourceFile) :
    ((workspaceManifests manifests).flatMap fun m =>
      (((filesOf (workspaceRoots manifests) m.root files).filter p).map (·.path)).map
        (Path.under m.root)).Perm ((files.filter p).map (·.path)) := by
  have hscan := scanRoot_mem_workspaceRoots manifests
  have hall := (flatMap_filesOf_perm manifests (files.filter p)).map (·.path)
  rw [List.map_flatMap] at hall
  simp only [filter_filesOf hscan hp, map_under_map_path]
  rw [workspaceRoots, List.flatMap_map] at hall
  exact hall

variable [Syntax.Parser]

/-! ## The metrics of the groups -/

/-- The metrics of a group, with paths relative to the scan root. -/
def projectMetrics (roots : List String) (files : List SourceFile) (settings : AnalysisSettings)
    (manifest : Manifest) : Metrics α :=
  (analyzeProject (filesOf roots manifest.root files) manifest
    (settingsFor roots manifest.root settings)).below manifest.root

theorem projectMetrics?_eq (roots : List String) (files : List SourceFile)
    (settings : AnalysisSettings) (manifest : Manifest) :
    (projectMetrics? roots files settings manifest : Option (Metrics α))
      = if !(filesOf roots manifest.root files).isEmpty then
          some (projectMetrics roots files settings manifest)
        else none := by
  unfold projectMetrics?
  dsimp only
  cases (filesOf roots manifest.root files).isEmpty <;> rfl

/-- A group without files has the metrics of no modules. -/
theorem projectMetrics_of_isEmpty {manifest : Manifest}
    (h : (filesOf roots manifest.root files).isEmpty = true) :
    (projectMetrics roots files settings manifest : Metrics α) = .empty := by
  rw [projectMetrics, List.isEmpty_iff.mp h, analyzeProject_nil, Metrics.below_eq_mapPaths]
  rfl

theorem regular_projectMetrics (roots : List String) (files : List SourceFile)
    (settings : AnalysisSettings) (manifest : Manifest) :
    (projectMetrics roots files settings manifest : Metrics α).Regular := by
  rw [projectMetrics, Metrics.below_eq_mapPaths]
  exact (regular_analyzeProject _ _ _).mapPaths _

/-- What is found in a group is about paths that belong to its root. -/
theorem within_projectMetrics (hscan : "" ∈ roots) (files : List SourceFile)
    (settings : AnalysisSettings) (manifest : Manifest) :
    (projectMetrics roots files settings manifest : Metrics α).Within fun path =>
      owningRoot roots path = manifest.root := by
  rw [projectMetrics, Metrics.below_eq_mapPaths]
  refine (within_analyzeProject _ _ _).mapPaths fun path hpath => ?_
  have hmem := List.mem_map_of_mem (f := Path.under manifest.root) hpath
  rw [map_under_map_path, map_under_filesOf hscan] at hmem
  obtain ⟨file, hfile, hsame⟩ := List.mem_map.mp hmem
  rw [← hsame]
  simpa using (List.mem_filter.mp hfile).2

/-! ## The metrics of a workspace -/

theorem analyzeWorkspace_eq (files : List SourceFile) (manifests : List Manifest)
    (settings : AnalysisSettings) :
    (analyzeWorkspace files manifests settings : Metrics α)
      = .mergeAll ((workspaceManifests manifests).filterMap
          (projectMetrics? (workspaceRoots manifests) files settings)) := rfl

/-- What a merge combines by an associative operation is combined over all groups, also over those
without files. -/
theorem foldr_analyzeWorkspace {op : β → β → β} {unit : β} [Std.Associative op]
    [Std.LawfulIdentity op unit] (field : Metrics α → β) (hempty : field .empty = unit)
    (hmerge : ∀ m n, field (m.merge n) = op (field m) (field n)) (files : List SourceFile)
    (manifests : List Manifest) (settings : AnalysisSettings) :
    field (analyzeWorkspace files manifests settings)
      = ((workspaceManifests manifests).map fun m =>
          field (projectMetrics (workspaceRoots manifests) files settings m)).foldr op unit := by
  have hunit : ∀ a, op unit a = a := Std.LawfulLeftIdentity.left_id
  rw [analyzeWorkspace_eq, Metrics.foldr_mergeAll field hempty hmerge]
  induction workspaceManifests manifests with
  | nil => rfl
  | cons m rest ih =>
    rw [List.filterMap_cons, List.map_cons, List.foldr_cons, projectMetrics?_eq]
    cases hfiles : (filesOf (workspaceRoots manifests) m.root files).isEmpty with
    | true =>
      -- the group is left out, and analysed it would contribute the unit
      rw [projectMetrics_of_isEmpty hfiles, hempty, hunit]
      exact ih
    | false =>
      change (List.map field (projectMetrics _ files settings m :: _)).foldr op unit = _
      rw [List.map_cons, List.foldr_cons, ih]

/-- The lists of a workspace are those of its groups one after the other. -/
theorem flatMap_analyzeWorkspace (list : Metrics α → List β) (hempty : list .empty = [])
    (hmerge : ∀ m n, list (m.merge n) = list m ++ list n) (files : List SourceFile)
    (manifests : List Manifest) (settings : AnalysisSettings) :
    list (analyzeWorkspace files manifests settings)
      = (workspaceManifests manifests).flatMap fun m =>
          list (projectMetrics (workspaceRoots manifests) files settings m) := by
  rw [foldr_analyzeWorkspace list hempty hmerge, List.foldr_map, List.foldr_append_eq_append,
    List.append_nil, List.flatMap_def]

/-- The counts of a workspace are those of its groups together. -/
theorem sum_analyzeWorkspace (count : Metrics α → ℕ) (hempty : count .empty = 0)
    (hmerge : ∀ m n, count (m.merge n) = count m + count n) (files : List SourceFile)
    (manifests : List Manifest) (settings : AnalysisSettings) :
    count (analyzeWorkspace files manifests settings)
      = ((workspaceManifests manifests).map fun m =>
          count (projectMetrics (workspaceRoots manifests) files settings m)).sum := by
  rw [foldr_analyzeWorkspace count hempty hmerge, List.sum_eq_foldr]

end ModuleAtlas
