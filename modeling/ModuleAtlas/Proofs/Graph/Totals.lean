import Mathlib.Algebra.Order.BigOperators.Group.List
import ModuleAtlas.Proofs.Graph.Cycle
import ModuleAtlas.Proofs.Linking

/-!
# Totals over the modules of a graph

The totals of a graph are bounds for each other. Every edge of a linked project is made by one import
that leads to a module, or by several, so there are at most as many edges as such imports, and the
graph has an edge exactly if there is one (`edgeCount_le_resolvedCount`, `edgeCount_pos_iff`). Every
module on a cycle is the source of an edge, and it is on no other cycle, so the lengths of all cycles
together are at most the number of modules and at most the number of edges
(`length_cyclic_le_moduleCount`, `length_cyclic_le_edgeCount`).
-/

namespace ModuleAtlas

/-- A sum over different items of a list is at most the sum over the list. -/
theorem sum_map_le_sum_map_of_subset {α : Type} {part all : List α} (hnodup : part.Nodup)
    (hsub : part ⊆ all) (count : α → ℕ) : (part.map count).sum ≤ (all.map count).sum := by
  obtain ⟨reordered, hperm, hsublist⟩ := hnodup.subperm hsub
  calc (part.map count).sum = (reordered.map count).sum := (hperm.map count).sum_eq.symm
    _ ≤ (all.map count).sum := (hsublist.map count).sum_le_sum fun _ _ => Nat.zero_le _

/-- A sum of counts is positive exactly if one of the counts is. -/
theorem sum_map_pos_iff {α : Type} {items : List α} {count : α → ℕ} :
    0 < (items.map count).sum ↔ ∃ item ∈ items, 0 < count item := by
  rw [Nat.pos_iff_ne_zero, ne_eq, List.sum_eq_zero_iff, List.forall_mem_map]
  push Not
  simp only [Nat.pos_iff_ne_zero]

namespace Graph

variable {g : Graph}

/-! ## Cycles -/

/-- The modules of all cycles, one cycle after the other. -/
def cyclic (g : Graph) : List String := g.cycles.flatMap (·.modules)

/-- No module is listed twice in the cycles. -/
theorem nodup_cyclic (hg : g.Closed) : g.cyclic.Nodup := by
  have hlists := listsComponents_cycles hg
  exact List.nodup_flatMap.mpr ⟨hlists.nodup, hlists.disjoint⟩

/-- Every module on a cycle imports something. -/
theorem exists_edge_of_mem_cyclic (hg : g.Closed) {id : String} (hid : id ∈ g.cyclic) :
    ∃ target, g.Edge id target := by
  obtain ⟨c, hc, hmem⟩ := List.mem_flatMap.mp hid
  have hself := ((listsComponents_cycles hg).mem_iff id).mp ⟨c, hc, hmem⟩
  obtain ⟨target, hedge, -⟩ := Relation.TransGen.head'_iff.mp hself
  exact ⟨target, hedge⟩

theorem cyclic_subset_ids (hg : g.Closed) : g.cyclic ⊆ g.ids := by
  intro id hid
  obtain ⟨target, hedge⟩ := exists_edge_of_mem_cyclic hg hid
  exact (hg hedge).1

theorem fanout_pos_iff {id : String} : 0 < g.fanout id ↔ ∃ target, g.Edge id target := by
  have hlength : g.fanout id = (g.dependencies id).length := (List.length_map _).symm
  rw [hlength, List.length_pos_iff_exists_mem]
  rfl

theorem edgeCount_eq_sum (g : Graph) : g.edgeCount = (g.ids.map g.fanout).sum := rfl

theorem length_cyclic_le_moduleCount (hg : g.Closed) : g.cyclic.length ≤ g.moduleCount := by
  rw [← length_ids]
  exact ((nodup_cyclic hg).subperm (cyclic_subset_ids hg)).length_le

theorem length_cyclic_le_edgeCount (hg : g.Closed) : g.cyclic.length ≤ g.edgeCount := by
  have hone : ∀ id ∈ g.cyclic, 1 ≤ g.fanout id :=
    fun id hid => fanout_pos_iff.mpr (exists_edge_of_mem_cyclic hg hid)
  calc g.cyclic.length = (g.cyclic.map fun _ => 1).sum := by simp
    _ ≤ (g.cyclic.map g.fanout).sum := List.sum_le_sum hone
    _ ≤ (g.ids.map g.fanout).sum :=
        sum_map_le_sum_map_of_subset (nodup_cyclic hg) (cyclic_subset_ids hg) g.fanout
    _ = g.edgeCount := (edgeCount_eq_sum g).symm

/-! ## Statements -/

theorem sum_statements_eq_sum_efferent (g : Graph) :
    (g.modules.map (·.statements)).sum = (g.ids.map g.efferent).sum := by
  rw [modules, ids, Keyed.values, Keyed.keys, List.map_map, List.map_map, List.map_map]
  apply congrArg List.sum
  apply List.map_congr_left
  intro entry hentry
  have hnode : g.nodes.find? entry.1 = some entry.2 := Keyed.find?_eq_some_iff.mpr hentry
  simp only [Function.comp_apply, efferent, module?, hnode, Option.map_some, Option.getD_some]

end Graph

namespace Project

variable {p : Project}

/-- The number of imports of a project that lead to a module. -/
def resolvedCount (p : Project) : ℕ :=
  (p.modules.entries.map fun (_, facts) => facts.edges.countP (·.isResolved)).sum

theorem isResolved_iff {e : ImportEdge} : e.isResolved = true ↔ ∃ target, e.target? = some target :=
  Option.isSome_iff_exists

/-- A sum over the modules of the graph of a project is one over the entries of the project. -/
theorem sum_map_ids_graph (p : Project) (count : String → ℕ) :
    (p.graph.ids.map count).sum = (p.modules.entries.map fun entry => count entry.1).sum := by
  rw [ids_graph, ids, Keyed.keys, List.map_map]
  rfl

/-- A module imports another exactly if one of its imports leads there. -/
theorem edge_graph_iff (h : p.Linked) {id target : String} {facts : Facts}
    (hfacts : p.facts? id = some facts) :
    p.graph.Edge id target ↔ ∃ e ∈ facts.edges, e.target? = some target := by
  obtain ⟨b, hgraph, hcounts⟩ := counts_graph h
  rw [hgraph, hcounts.edge_iff, leads_statements hfacts, List.mem_map]

/-- A module has at most as many edges as imports that lead to a module. -/
theorem fanout_le_countP (h : p.Linked) {id : String} {facts : Facts}
    (hfacts : p.facts? id = some facts) :
    p.graph.fanout id ≤ facts.edges.countP (·.isResolved) := by
  obtain ⟨b, hgraph, -⟩ := counts_graph h
  have hnodup : (p.graph.dependencies id).Nodup := by
    rw [hgraph]
    exact (b.dependencies_build_pairwise id).imp ne_of_lt
  have hsub : p.graph.dependencies id ⊆ facts.edges.filterMap (·.target?) := by
    intro target htarget
    exact List.mem_filterMap.mpr ((edge_graph_iff h hfacts).mp htarget)
  calc p.graph.fanout id = (p.graph.dependencies id).length := (List.length_map _).symm
    _ ≤ (facts.edges.filterMap (·.target?)).length := (hnodup.subperm hsub).length_le
    _ = facts.edges.countP (·.isResolved) := List.length_filterMap_eq_countP

theorem edgeCount_le_resolvedCount (h : p.Linked) : p.graph.edgeCount ≤ p.resolvedCount := by
  rw [Graph.edgeCount_eq_sum, sum_map_ids_graph]
  apply List.sum_le_sum
  intro entry hentry
  exact fanout_le_countP h (Keyed.find?_eq_some_iff.mpr hentry)

/-- The graph has an edge exactly if an import leads to a module. -/
theorem edgeCount_pos_iff (h : p.Linked) : 0 < p.graph.edgeCount ↔ 0 < p.resolvedCount := by
  refine ⟨fun hpos => hpos.trans_le (edgeCount_le_resolvedCount h), fun hpos => ?_⟩
  obtain ⟨⟨id, facts⟩, hentry, hcount⟩ := sum_map_pos_iff.mp hpos
  obtain ⟨e, he, hresolved⟩ := List.countP_pos_iff.mp hcount
  obtain ⟨target, htarget⟩ := isResolved_iff.mp hresolved
  have hedge : p.graph.Edge id target :=
    (edge_graph_iff h (Keyed.find?_eq_some_iff.mpr hentry)).mpr ⟨e, he, htarget⟩
  rw [Graph.edgeCount_eq_sum, sum_map_ids_graph]
  exact sum_map_pos_iff.mpr ⟨(id, facts), hentry, Graph.fanout_pos_iff.mpr ⟨target, hedge⟩⟩

/-- All imports lead out of the project or to a module. -/
theorem externalCount_add_resolvedCount (h : p.Linked) :
    p.graph.externalCount + p.resolvedCount
      = (p.modules.entries.map fun entry => entry.2.edges.length).sum := by
  obtain ⟨b, hgraph, hcounts⟩ := counts_graph h
  have hexternals : ∀ entry ∈ p.modules.entries,
      p.graph.externals entry.1 + entry.2.edges.countP (·.isResolved) = entry.2.edges.length := by
    intro entry hentry
    have hfacts : p.facts? entry.1 = some entry.2 := Keyed.find?_eq_some_iff.mpr hentry
    have hexternal : p.graph.externals entry.1 = entry.2.edges.countP fun e => ¬ e.isResolved := by
      rw [hgraph, hcounts.externals, leads_statements hfacts, List.count_eq_countP,
        List.countP_map]
      apply List.countP_congr
      intro e _
      simp [ImportEdge.isResolved]
    rw [hexternal, Nat.add_comm]
    exact (List.length_eq_countP_add_countP _).symm
  rw [Graph.externalCount_eq_sum, sum_map_ids_graph, resolvedCount, ← List.sum_map_add]
  exact congrArg List.sum (List.map_congr_left hexternals)

/-- The imports that lead to a module are counted where they lead. -/
theorem sum_afferent_eq_resolvedCount (h : p.Linked) :
    (p.graph.ids.map p.graph.afferent).sum = p.resolvedCount := by
  have hall := externalCount_add_resolvedCount h
  have hafferent := externalCount_add_sum_afferent h
  rw [Keyed.values, List.map_map] at hafferent
  change _ = (p.modules.entries.map fun entry => entry.2.edges.length).sum at hafferent
  omega

/-- The imports in all modules lead out of the project or to a module. -/
theorem sum_statements (h : p.Linked) :
    (p.graph.modules.map (·.statements)).sum = p.graph.externalCount + p.resolvedCount := by
  obtain ⟨b, hgraph, hcounts⟩ := counts_graph h
  have hsum := hcounts.externalCount_add_sum_afferent
  rw [← hgraph] at hsum
  rw [Graph.sum_statements_eq_sum_efferent, ← hsum, sum_afferent_eq_resolvedCount h]

end Project

end ModuleAtlas
