import Mathlib.Algebra.Order.BigOperators.Group.List
import Mathlib.Algebra.Order.Field.Rat
import ModuleAtlas.Proofs.Analysis
import ModuleAtlas.Proofs.Graph.Totals

/-!
# What the summaries of a graph say

A summary has a mean and a maximum of the same counts. The mean times its weight is the sum of the
counts, so the mean is at most the maximum, and the maximum is positive exactly if the sum is, in
which case somebody is named who attains it. For the fanouts the sum is the number of edges, for the
statements it is all imports, and for the statements that lead to a module all imports that do.
-/

namespace ModuleAtlas

/-! ## Exact means -/

namespace Average

/-- What a mean stands for is the sum; over nothing the sum has to be zero. -/
theorem mean_mul {sum count : ℕ} (h : count = 0 → sum = 0) :
    (mean sum count : ℚ) * count = sum := by
  unfold mean
  split
  · rename_i hcount
    rw [h hcount, hcount, Nat.cast_zero, mul_zero]
  · rename_i hcount
    exact div_mul_cancel₀ _ (Nat.cast_ne_zero.mpr hcount)

/-- A mean is at most what each summand is at most. -/
theorem mean_le {sum count bound : ℕ} (h : sum ≤ count * bound) :
    (mean sum count : ℚ) ≤ bound := by
  unfold mean
  split
  · exact Nat.cast_nonneg bound
  · rename_i hcount
    have hpos : (0 : ℚ) < count := Nat.cast_pos.mpr (Nat.pos_of_ne_zero hcount)
    show (sum : ℚ) / count ≤ bound
    rw [div_le_iff₀ hpos, mul_comm]
    exact_mod_cast h

end Average

/-! ## Maxima of lists -/

section

variable {β : Type} {values : List (β × ℕ)}

/-- The maximum of counts is positive exactly if their sum is. -/
theorem firstMax_map_pos_iff {items : List β} {count : β → ℕ} :
    0 < (firstMax (items.map fun item => (item, count item))).1 ↔ 0 < (items.map count).sum := by
  rw [(firstOfLargest_firstMax _).pos_iff, sum_map_pos_iff]
  simp only [List.mem_map, exists_exists_and_eq_and]

/-- The values add up to at most their number times the maximum. -/
theorem sum_le_length_mul_firstMax (values : List (β × ℕ)) :
    (values.map (·.2)).sum ≤ values.length * (firstMax values).1 := by
  have hbound : ∀ count ∈ values.map (·.2), count ≤ (firstMax values).1 :=
    List.forall_mem_map.mpr (firstOfLargest_firstMax values).le
  have hsum := List.sum_le_card_nsmul _ _ hbound
  rwa [List.length_map, Nat.nsmul_eq_mul] at hsum

end

/-- The same of a maximum without a label. -/
theorem sum_le_length_mul_foldl_max (counts : List ℕ) :
    counts.sum ≤ counts.length * counts.foldl Nat.max 0 := by
  have hsum := List.sum_le_card_nsmul _ _ (foldl_max_spec counts).1
  rwa [Nat.nsmul_eq_mul] at hsum

namespace Graph

variable {g : Graph}

/-! ## Graphs -/

theorem sum_map_ids_eq_zero (count : String → ℕ) (h : g.moduleCount = 0) :
    (g.ids.map count).sum = 0 := by
  rw [← length_ids, List.length_eq_zero_iff] at h
  rw [h]
  rfl

theorem length_modules (g : Graph) : g.modules.length = g.moduleCount := by
  rw [modules, Keyed.values, List.length_map, List.length_map]
  rfl

theorem depthSummary_average_le (g : Graph) :
    (g.depthSummary : DepthSummary ℚ).average ≤ (g.depthSummary : DepthSummary ℚ).max := by
  apply Average.mean_le
  have hsum := sum_le_length_mul_foldl_max (g.modules.map Module.depth)
  rwa [List.length_map, length_modules] at hsum

theorem fanoutSummary_average_mul (g : Graph) :
    (g.fanoutSummary : FanoutSummary ℚ).average * g.moduleCount = g.edgeCount := by
  have hsum : total ((g.ids.map fun id => (id, g.fanout id)).map (·.2)) = g.edgeCount := by
    rw [List.map_map]
    rfl
  rw [← hsum]
  apply Average.mean_mul
  intro hzero
  rw [hsum]
  exact sum_map_ids_eq_zero g.fanout hzero

theorem fanoutSummary_average_le (g : Graph) :
    (g.fanoutSummary : FanoutSummary ℚ).average ≤ (g.fanoutSummary : FanoutSummary ℚ).max := by
  apply Average.mean_le
  have hsum := sum_le_length_mul_firstMax (g.ids.map fun id => (id, g.fanout id))
  rwa [List.length_map, length_ids] at hsum

theorem fanoutSummary_max_pos_iff (g : Graph) :
    0 < (g.fanoutSummary : FanoutSummary ℚ).max ↔ 0 < g.edgeCount :=
  firstMax_map_pos_iff

theorem couplingSummary_average_mul (g : Graph) :
    (g.couplingSummary : CouplingSummary ℚ).averageEfferent * g.moduleCount
      = (g.modules.map (·.statements)).sum := by
  apply Average.mean_mul
  intro hzero
  rw [total_eq_sum, sum_statements_eq_sum_efferent]
  exact sum_map_ids_eq_zero g.efferent hzero

theorem couplingSummary_max_pos_iff (g : Graph) :
    0 < (g.couplingSummary : CouplingSummary ℚ).maxAfferent ↔ 0 < (g.ids.map g.afferent).sum :=
  firstMax_map_pos_iff

end Graph

/-! ## Imports -/

theorem complexitySummary_average_le (edges : List (String × List ImportEdge)) :
    (complexitySummary edges : ComplexitySummary ℚ).average
      ≤ (complexitySummary edges : ComplexitySummary ℚ).max := by
  apply Average.mean_le
  exact sum_le_length_mul_firstMax _

/-- The relative imports that are summarised lead to a module. -/
theorem complexitySummary_relativeImports_le (p : Project) :
    (complexitySummary (p.modules.entries.map fun (id, facts) => (id, facts.edges)) :
      ComplexitySummary ℚ).relativeImports ≤ p.resolvedCount := by
  show ((relativeEdges _).map _).length ≤ p.resolvedCount
  rw [List.length_map, relativeEdges, List.length_flatMap, List.map_map]
  apply List.sum_le_sum
  rintro ⟨id, facts⟩ -
  show ((facts.edges.filter fun e => e.isRelative && e.isResolved).map fun e => (id, e)).length
    ≤ facts.edges.countP (·.isResolved)
  rw [List.length_map, ← List.countP_eq_length_filter]
  apply List.countP_mono_left
  intro e _ hboth
  exact (Bool.and_eq_true _ _ ▸ hboth).2

end ModuleAtlas
