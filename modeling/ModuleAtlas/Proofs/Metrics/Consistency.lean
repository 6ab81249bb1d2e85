import Mathlib.Tactic.Positivity
import ModuleAtlas.Proofs.Metrics.Fold
import ModuleAtlas.Proofs.Metrics.Summary

/-!
# Metrics that fit together

The fields of metrics are computed one by one, but they are about the same modules and imports:
averages stand for the counts, no average exceeds its maximum, a maximum is positive exactly if
something has been named that attains it, and the cycles are no longer than the graph is large
(`Metrics.Consistent`). A merge keeps all this (`Consistent.merge`), since the products of averages
and weights add up and of two maxima the higher one stays with its names.

One count is not in the metrics, the number of imports that lead to a module. It is a parameter and
adds up like the others.
-/

namespace ModuleAtlas

/-! ## Consistent metrics -/

/-- A mean of two averages is at most the larger of two bounds for them. -/
theorem Average.weighted_le {a b : ℚ} {bound bound' : ℕ} (m n : ℕ) (ha : a ≤ bound)
    (hb : b ≤ bound') : weighted a m b n ≤ (max bound bound' : ℕ) := by
  have ha : a ≤ (max bound bound' : ℕ) := ha.trans (Nat.cast_le.mpr (Nat.le_max_left _ _))
  have hb : b ≤ (max bound bound' : ℕ) := hb.trans (Nat.cast_le.mpr (Nat.le_max_right _ _))
  rw [weighted_eq_div]
  apply div_le_of_le_mul₀
  · positivity
  · positivity
  · rw [Nat.cast_add, mul_add]
    gcongr

namespace Metrics

/-- The fields of metrics fit together, where `resolved` imports lead to a module. -/
structure Consistent (m : Metrics ℚ) (resolved : ℕ) : Prop where
  /-- the modules have as many edges as there are -/
  fanout_mul : m.fanout.average * m.moduleCount = m.edgeCount
  /-- the modules have as many imports as lead out of the project or to a module -/
  coupling_mul : m.coupling.averageEfferent * m.moduleCount = (m.externalCount + resolved : ℕ)
  edgeCount_le : m.edgeCount ≤ resolved
  relativeImports_le : m.complexity.relativeImports ≤ resolved
  depth_le : m.depth.average ≤ m.depth.max
  fanout_le : m.fanout.average ≤ m.fanout.max
  complexity_le : m.complexity.average ≤ m.complexity.max
  fanout_pos : 0 < m.edgeCount ↔ 0 < m.fanout.max
  fanout_named : 0 < m.fanout.max ↔ m.fanout.maxModule.isSome
  coupling_pos : 0 < m.edgeCount ↔ 0 < m.coupling.maxAfferent
  coupling_named : 0 < m.coupling.maxAfferent ↔ m.coupling.maxAfferentModule.isSome
  complexity_quoted : 0 < m.complexity.max ↔ m.complexity.maxImport.isSome
  complexity_named : 0 < m.complexity.max ↔ m.complexity.maxModule.isSome
  cycles_le_modules : (m.cycles.map (·.modules.length)).sum ≤ m.moduleCount
  cycles_le_edges : (m.cycles.map (·.modules.length)).sum ≤ m.edgeCount

theorem consistent_empty : (empty : Metrics ℚ).Consistent 0 := by
  constructor <;> simp [empty, Average.zero]

variable {m n : Metrics ℚ} {a b : ℕ}

/-- Nothing is said about the paths. -/
theorem Consistent.mapPaths (h : m.Consistent a) (f : String → String) :
    (m.mapPaths f).Consistent a :=
  { h with
    fanout_named := by rw [Metrics.mapPaths, Option.isSome_map]; exact h.fanout_named
    coupling_named := by rw [Metrics.mapPaths, Option.isSome_map]; exact h.coupling_named
    complexity_named := by rw [Metrics.mapPaths, Option.isSome_map]; exact h.complexity_named
    cycles_le_modules := by
      simp only [Metrics.mapPaths, List.map_map, Function.comp_def, List.length_map]
      exact h.cycles_le_modules
    cycles_le_edges := by
      simp only [Metrics.mapPaths, List.map_map, Function.comp_def, List.length_map]
      exact h.cycles_le_edges }

/-- Nothing is said about the warnings. -/
theorem Consistent.withWarnings (h : m.Consistent a) (warnings : List Warning) :
    { m with warnings := warnings }.Consistent a :=
  { h with }

/-! ## Consistent merges -/

namespace Peak

/-- The maximum is positive exactly if a module is named that attains it. -/
def Named (p : Peak) : Prop := 0 < p.max ↔ p.module.isSome

/-- The maximum is positive exactly if an import is quoted that attains it. -/
def Quoted (p : Peak) : Prop := 0 < p.max ↔ p.statement.isSome

end Peak

theorem max_higher (p q : Peak) : (p.higher q).max = max p.max q.max := by
  unfold Peak.higher
  split
  · rename_i hlt
    exact (max_eq_right hlt.le).symm
  · rename_i hge
    exact (max_eq_left (not_lt.mp hge)).symm

section

variable (s : Summary) {count count' : ℕ}
include s

/-- What the peaks of both metrics have in common the peak of their merge has as well. -/
theorem peak_merge_of {P : Peak → Prop} (hm : P (s.peak m)) (hn : P (s.peak n)) :
    P (s.peak (m.merge n)) := by
  rw [s.peak_merge, Peak.higher]
  split
  · exact hn
  · exact hm

/-- Where counts are positive together with maxima, their sum is so with the higher maximum. -/
theorem pos_merge_iff (hm : 0 < count ↔ 0 < (s.peak m).max)
    (hn : 0 < count' ↔ 0 < (s.peak n).max) :
    0 < count + count' ↔ 0 < (s.peak (m.merge n)).max := by
  rw [s.peak_merge, max_higher, lt_max_iff, ← hm, ← hn]
  exact Nat.add_pos_iff_pos_or_pos

/-- Averages that are at most their maxima stay so. -/
theorem average_merge_le (hm : s.average m ≤ (s.peak m).max) (hn : s.average n ≤ (s.peak n).max) :
    s.average (m.merge n) ≤ (s.peak (m.merge n)).max := by
  rw [s.average_merge, s.peak_merge, max_higher]
  exact Average.weighted_le _ _ hm hn

/-- The counts that averages stand for add up. -/
theorem average_mul_merge (hm : s.average m * s.weight m = count)
    (hn : s.average n * s.weight n = count') :
    s.average (m.merge n) * s.weight (m.merge n) = (count + count' : ℕ) := by
  rw [s.average_merge, s.weight_merge, Average.weighted_mul, hm, hn, Nat.cast_add]

end

/-- Metrics that fit together do so when they are merged. -/
theorem Consistent.merge (hm : m.Consistent a) (hn : n.Consistent b) :
    (m.merge n).Consistent (a + b) where
  fanout_mul := average_mul_merge .fanout hm.fanout_mul hn.fanout_mul
  coupling_mul := by
    have hsum := average_mul_merge .coupling hm.coupling_mul hn.coupling_mul
    rwa [Nat.add_add_add_comm] at hsum
  edgeCount_le := Nat.add_le_add hm.edgeCount_le hn.edgeCount_le
  relativeImports_le := Nat.add_le_add hm.relativeImports_le hn.relativeImports_le
  depth_le := average_merge_le .depth hm.depth_le hn.depth_le
  fanout_le := average_merge_le .fanout hm.fanout_le hn.fanout_le
  complexity_le := average_merge_le .complexity hm.complexity_le hn.complexity_le
  fanout_pos := pos_merge_iff .fanout hm.fanout_pos hn.fanout_pos
  fanout_named := peak_merge_of (P := Peak.Named) .fanout hm.fanout_named hn.fanout_named
  coupling_pos := pos_merge_iff .coupling hm.coupling_pos hn.coupling_pos
  coupling_named := peak_merge_of (P := Peak.Named) .coupling hm.coupling_named hn.coupling_named
  complexity_quoted :=
    peak_merge_of (P := Peak.Quoted) .complexity hm.complexity_quoted hn.complexity_quoted
  complexity_named :=
    peak_merge_of (P := Peak.Named) .complexity hm.complexity_named hn.complexity_named
  cycles_le_modules := by
    show ((m.cycles ++ n.cycles).map _).sum ≤ m.moduleCount + n.moduleCount
    rw [List.map_append, List.sum_append]
    exact Nat.add_le_add hm.cycles_le_modules hn.cycles_le_modules
  cycles_le_edges := by
    show ((m.cycles ++ n.cycles).map _).sum ≤ m.edgeCount + n.edgeCount
    rw [List.map_append, List.sum_append]
    exact Nat.add_le_add hm.cycles_le_edges hn.cycles_le_edges

/-- The metrics of several projects fit together with all their imports. -/
theorem Consistent.foldl {ι : Type} {f : ι → Metrics ℚ} {count : ι → ℕ}
    (hf : ∀ i, (f i).Consistent (count i)) (items : List ι) :
    ((items.map f).foldl Metrics.merge empty).Consistent (items.map count).sum := by
  have hrest : ∀ (items : List ι) (first : Metrics ℚ) (a : ℕ), first.Consistent a →
      ((items.map f).foldl Metrics.merge first).Consistent (a + (items.map count).sum) := by
    intro items
    induction items with
    | nil => exact fun _ _ hfirst => hfirst
    | cons i items ih =>
      intro first a hfirst
      rw [List.map_cons, List.foldl_cons, List.map_cons, List.sum_cons, ← Nat.add_assoc]
      exact ih _ _ (hfirst.merge (hf i))
  have hall := hrest items empty 0 consistent_empty
  rwa [Nat.zero_add] at hall

end Metrics

/-! ## Consistent projects -/

/-- The metrics of a linked project fit together. -/
theorem Project.consistent_metrics {p : Project} (h : p.Linked) (r : Resolver)
    (settings : AnalysisSettings) : (p.metrics r settings : Metrics ℚ).Consistent p.resolvedCount := by
  have hclosed := closed_graph p
  have hcycles : (p.graph.cycles.map (·.modules.length)).sum = p.graph.cyclic.length :=
    List.length_flatMap.symm
  exact
    { fanout_mul := p.graph.fanoutSummary_average_mul
      coupling_mul := by
        show _ = ((p.graph.externalCount + p.resolvedCount : ℕ) : ℚ)
        rw [← sum_statements h]
        exact p.graph.couplingSummary_average_mul
      edgeCount_le := edgeCount_le_resolvedCount h
      relativeImports_le := complexitySummary_relativeImports_le p
      depth_le := p.graph.depthSummary_average_le
      fanout_le := p.graph.fanoutSummary_average_le
      complexity_le := complexitySummary_average_le _
      fanout_pos := p.graph.fanoutSummary_max_pos_iff.symm
      fanout_named := isSome_firstMax_iff.symm
      coupling_pos := by
        rw [metrics, p.graph.couplingSummary_max_pos_iff, sum_afferent_eq_resolvedCount h]
        exact edgeCount_pos_iff h
      coupling_named := isSome_firstMax_iff.symm
      complexity_quoted := by
        show _ ↔ (Option.map Prod.snd _).isSome
        rw [Option.isSome_map]
        exact isSome_firstMax_iff.symm
      complexity_named := by
        show _ ↔ (Option.map Prod.fst _).isSome
        rw [Option.isSome_map]
        exact isSome_firstMax_iff.symm
      cycles_le_modules := hcycles.trans_le (Graph.length_cyclic_le_moduleCount hclosed)
      cycles_le_edges := hcycles.trans_le (Graph.length_cyclic_le_edgeCount hclosed) }

/-- The metrics of every project fit together. -/
theorem consistent_analyzeProject [Syntax.Parser] (files : List SourceFile) (manifest : Manifest)
    (settings : AnalysisSettings) : (analyzeProject files manifest settings : Metrics ℚ).Consistent
      (linkedProject files manifest).resolvedCount := by
  rw [analyzeProject_eq]
  apply Metrics.Consistent.withWarnings
  exact Project.consistent_metrics (linked_linkedProject files manifest) _ _

end ModuleAtlas
