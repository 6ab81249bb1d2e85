import Mathlib.Tactic.NormNum
import ModuleAtlas.Grammar
import ModuleAtlas.Proofs.Metrics.Fold
import ModuleAtlas.Proofs.Workspace.Partition

/-!
# Merging the metrics of projects

All metrics that are computed are regular, those of a workspace like those of a project
(`regular_analyzeWorkspace`). On regular metrics the metrics of no modules are neutral, and a merge
has the weighted means of all averages, even where a single record is left as it is. Records that
nobody computed may have an average over no modules, and a single one of them keeps it.
-/

namespace ModuleAtlas

open Metrics (Summary Gathers empty mergeAll)

variable {α : Type} [Average α]

/-- The metrics of every workspace are regular. -/
theorem regular_analyzeWorkspace [Syntax.Parser] (files : List SourceFile) (manifests : List Manifest)
    (settings : AnalysisSettings) :
    (analyzeWorkspace files manifests settings : Metrics α).Regular := by
  rw [analyzeWorkspace_eq]
  refine Metrics.Regular.mergeAll fun m hm => ?_
  obtain ⟨manifest, -, hmanifest⟩ := List.mem_filterMap.mp hm
  rw [projectMetrics?_eq] at hmanifest
  split at hmanifest
  · obtain rfl := Option.some.inj hmanifest
    exact regular_projectMetrics _ _ _ _
  · cases hmanifest

/-- Merging with exact averages: it is associative, what is computed has the metrics of no modules
as a neutral element, many metrics add up to what can be said of them at once, and paths can be put
below a root before the merge or after it. -/
theorem mergeAll_laws [Syntax.Parser] :
    (∀ a b c : Metrics ℚ, (a.merge b).merge c = a.merge (b.merge c)) ∧
    (∀ m : Metrics ℚ, m.Regular → empty.merge m = m ∧ m.merge empty = m) ∧
    (∀ files manifest settings, (analyzeProject files manifest settings : Metrics ℚ).Regular) ∧
    (∀ files manifests settings,
      (analyzeWorkspace files manifests settings : Metrics ℚ).Regular) ∧
    (∀ all : List (Metrics ℚ), Gathers all (mergeAll all)) ∧
    (∀ all : List (Metrics ℚ), (∀ m ∈ all, m.Regular) → ∀ s : Summary, s.average (mergeAll all)
      = weightedMean (all.map fun m => (s.average m, s.weight m))) ∧
    (∀ root, ∀ a b : Metrics ℚ, (a.merge b).below root = (a.below root).merge (b.below root)) ∧
    (∀ root, ∀ all : List (Metrics ℚ),
      (mergeAll all).below root = mergeAll (all.map (Metrics.below root))) := by
  refine ⟨Metrics.merge_assoc, fun m hm => ⟨hm.empty_merge, hm.merge_empty⟩,
    regular_analyzeProject, regular_analyzeWorkspace, Metrics.gathers_mergeAll, ?_,
    Metrics.below_merge, Metrics.below_mergeAll⟩
  intro all hregular s
  refine Metrics.average_mergeAll s fun m hall hweight => ?_
  have hm : m ∈ all := by simp [hall]
  exact (hregular m hm).average_eq_zero s hweight

/-- The metrics of three modules. -/
def webMetrics : Metrics ℚ :=
  { empty with
    moduleCount := 3
    depth := ⟨1, 2⟩
    fanout := { average := 2, max := 4, maxModule := some "web/a.ts" } }

/-- The metrics of one module that has as many dependencies as one of those three. -/
def apiMetrics : Metrics ℚ :=
  { empty with
    moduleCount := 1
    depth := ⟨5, 5⟩
    fanout := { average := 4, max := 4, maxModule := some "api/b.go" } }

/-- Of two projects the larger one counts more, and the first one is named of two that are equal. -/
theorem mergeAll_web_api :
    webMetrics.Regular ∧ empty.merge webMetrics = webMetrics ∧ apiMetrics.Regular ∧
    (mergeAll [webMetrics, apiMetrics]).depth.average = 2 ∧
    (Summary.fanout.peak (mergeAll [webMetrics, apiMetrics])).IsFirst
      [⟨4, none, some "web/a.ts"⟩, ⟨4, none, some "api/b.go"⟩] := by
  obtain ⟨-, hneutral, -, -, hgathers, hmeans, -⟩ := mergeAll_laws
  have hweb : webMetrics.Regular := by constructor <;> simp [webMetrics, empty]
  have hapi : apiMetrics.Regular := by constructor <;> simp [apiMetrics, empty]
  have hboth : ∀ m ∈ [webMetrics, apiMetrics], m.Regular := by
    intro m hm
    rcases List.mem_pair.mp hm with rfl | rfl
    · exact hweb
    · exact hapi
  have hmean := hmeans [webMetrics, apiMetrics] hboth .depth
  have hvalue : weightedMean [(1, 3), (5, 1)] = 2 := by norm_num [weightedMean]
  exact ⟨hweb, (hneutral webMetrics hweb).1, hapi, hmean.trans hvalue,
    (hgathers [webMetrics, apiMetrics]).peak .fanout (by simp)⟩

/-- A record without modules that has an average all the same, and somebody with no dependencies. -/
def idleMetrics : Metrics ℚ :=
  { empty with
    depth := ⟨1, 0⟩
    fanout := { average := 0, max := 0, maxModule := some "a.ts" } }

/-- Alone the record keeps its average over no modules, which as a mean would be zero. Merged into
the metrics of no modules it loses the name with its maximum. -/
theorem mergeAll_idle :
    Summary.depth.average (mergeAll [idleMetrics]) ≠ weightedMean
      ([idleMetrics].map fun m => (Summary.depth.average m, Summary.depth.weight m)) ∧
    (Summary.fanout.peak ([idleMetrics].foldl Metrics.merge empty)).module
      ≠ (Summary.fanout.peak idleMetrics).module := by
  constructor
  · have hmean : weightedMean [(1, 0)] = 0 := by simp [weightedMean]
    have hkept : Summary.depth.average (mergeAll [idleMetrics]) = 1 := rfl
    change Summary.depth.average (mergeAll [idleMetrics]) ≠ weightedMean [(1, 0)]
    rw [hkept, hmean]
    exact one_ne_zero
  · change (none : Option String) ≠ some "a.ts"
    simp

end ModuleAtlas
