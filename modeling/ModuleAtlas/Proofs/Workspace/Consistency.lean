import ModuleAtlas.Proofs.EntryPoint
import ModuleAtlas.Proofs.Metrics.Consistency
import ModuleAtlas.Proofs.Workspace.Independence

/-!
# The report of a workspace fits together

What holds of the metrics of each project holds of their merge, and paths play no part in it. So the
counts, averages and maxima of every workspace fit together, whatever projects there are and however
their roots are nested. No module is listed twice in the cycles or among the unreachable modules:
within a project it is not, and what different projects list belongs to different roots
(`consistent_analyzeWorkspace`).
-/

namespace ModuleAtlas

variable {α : Type} [Average α]

/-- The modules on the cycles of a workspace, one cycle after the other. -/
def Metrics.cyclic (m : Metrics α) : List String := m.cycles.flatMap (·.modules)

omit [Average α] in
theorem Metrics.cyclic_mapPaths (f : String → String) (m : Metrics α) :
    (m.mapPaths f).cyclic = m.cyclic.map f := by
  rw [cyclic, cyclic, List.map_flatMap, mapPaths, List.flatMap_map]

variable [Syntax.Parser]

/-- The number of imports in a workspace that lead to a module. -/
def workspaceResolvedCount (files : List SourceFile) (manifests : List Manifest) : ℕ :=
  ((workspaceManifests manifests).map fun m =>
    (linkedProject (filesOf (workspaceRoots manifests) m.root files) m).resolvedCount).sum

/-! ## Nothing is listed twice -/

theorem nodup_cyclic_analyzeProject (files : List SourceFile) (manifest : Manifest)
    (settings : AnalysisSettings) :
    (analyzeProject files manifest settings : Metrics α).cyclic.Nodup := by
  rw [Metrics.cyclic, cycles_analyzeProject]
  exact Graph.nodup_cyclic (closed_projectGraph _ _)

theorem nodup_unreachable_analyzeProject (files : List SourceFile) (manifest : Manifest)
    (settings : AnalysisSettings) :
    (analyzeProject files manifest settings : Metrics α).unreachable.Nodup := by
  rw [unreachable_analyzeProject]
  exact (Graph.unreachable_pairwise _ _).imp ne_of_lt

/-- A list of paths repeats nothing in a workspace if it repeats nothing in any project. -/
theorem nodup_analyzeWorkspace (list : Metrics α → List String) (hempty : list .empty = [])
    (hmerge : ∀ m n, list (m.merge n) = list m ++ list n)
    (hpaths : ∀ f (m : Metrics α), list (m.mapPaths f) = (list m).map f)
    (hwithin : ∀ (m : Metrics α) (P : String → Prop), m.Within P → ∀ path ∈ list m, P path)
    (hproject : ∀ files manifest settings,
      (list (analyzeProject files manifest settings : Metrics α)).Nodup)
    (files : List SourceFile) (manifests : List Manifest) (settings : AnalysisSettings) :
    (list (analyzeWorkspace files manifests settings)).Nodup := by
  have hscan := scanRoot_mem_workspaceRoots manifests
  rw [flatMap_analyzeWorkspace list hempty hmerge, List.nodup_flatMap]
  constructor
  · intro manifest _
    rw [projectMetrics, Metrics.below_eq_mapPaths, hpaths]
    exact (hproject _ _ _).map (Path.under_injective manifest.root)
  · -- a path that two projects list belongs to the roots of both
    apply (workspaceManifests_pairwise manifests).imp
    intro first second hlt path hfirst hsecond
    have howner := hwithin _ _ (within_projectMetrics hscan files settings first) path hfirst
    have howner' := hwithin _ _ (within_projectMetrics hscan files settings second) path hsecond
    exact hlt.ne (howner.symm.trans howner')

/-! ## The report -/

/-- The fields of the report of every workspace fit together, and it lists no module twice in the
cycles or twice among the unreachable ones. -/
theorem consistent_analyzeWorkspace (files : List SourceFile) (manifests : List Manifest)
    (settings : AnalysisSettings) :
    (analyzeWorkspace files manifests settings : Metrics ℚ).Consistent
      (workspaceResolvedCount files manifests) ∧
    (analyzeWorkspace files manifests settings : Metrics ℚ).cyclic.Nodup ∧
    (analyzeWorkspace files manifests settings : Metrics ℚ).unreachable.Nodup := by
  refine ⟨?_, ?_, ?_⟩
  · rw [analyzeWorkspace_eq_foldl]
    apply Metrics.Consistent.foldl
    intro manifest
    rw [projectMetrics, Metrics.below_eq_mapPaths]
    exact (consistent_analyzeProject _ _ _).mapPaths _
  · apply nodup_analyzeWorkspace Metrics.cyclic rfl (fun _ _ => List.flatMap_append)
      Metrics.cyclic_mapPaths ?_ nodup_cyclic_analyzeProject
    intro m P hwithin path hpath
    obtain ⟨c, hc, hmem⟩ := List.mem_flatMap.mp hpath
    exact (hwithin.cycles c hc).2 path hmem
  · exact nodup_analyzeWorkspace Metrics.unreachable rfl (fun _ _ => rfl) (fun _ _ => rfl)
      (fun _ _ hwithin => hwithin.unreachable) nodup_unreachable_analyzeProject files manifests
      settings

end ModuleAtlas
