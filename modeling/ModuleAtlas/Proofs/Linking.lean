import Mathlib.Data.List.Sort
import ModuleAtlas.Project
import ModuleAtlas.Proofs.Graph.Statements
import ModuleAtlas.Proofs.Resolver

/-!
# Linking loses no import

The graph of a project is built by one call for each module and one for each import. Imports are
resolved among the files of the project, so every call names known modules and none is refused. The
counters of the graph are therefore those of the imports that were extracted: of each module, so
many imports, so many that are external, and so many that lead to each other module.
-/

namespace ModuleAtlas

open GraphBuilder (Call)

namespace Project

variable {p : Project} {manifest : Manifest} {id target : String} {facts : Facts}

/-! ## The calls that build the graph -/

/-- The call that adds an import to a graph. -/
def importCall (id : String) (e : ImportEdge) : Call :=
  match e.target? with
  | some target => .addImport id target
  | none => .addExternal id

/-- The calls that add the modules of a project. -/
def moduleCalls (p : Project) : List Call :=
  p.modules.entries.map fun (id, facts) => .addModule id facts.language

/-- The calls that add the imports of a project, one for each. -/
def importCalls (p : Project) : List Call :=
  p.modules.entries.flatMap fun (id, facts) => facts.edges.map (importCall id)

/-- The imports of a project as statements. -/
def statements (p : Project) : List Statement :=
  p.modules.entries.flatMap fun (id, facts) => facts.edges.map fun e => ⟨id, e.target?⟩

/-- The imports lead to modules of the project. -/
def Linked (p : Project) : Prop :=
  ∀ id facts, p.facts? id = some facts → ∀ e ∈ facts.edges, ∀ t, e.target? = some t → t ∈ p.ids

/-- Adding an import to a graph is making its call, which changes nothing if it is refused. -/
theorem addEdge_eq_perform (id : String) :
    addEdge id = fun b e => b.perform (importCall id e) := by
  funext b e
  rw [addEdge, importCall]
  cases e.target? <;> rfl

/-- The graph is built by the calls for the modules and then by those for the imports. -/
theorem graph_eq_ofCalls (p : Project) : p.graph = .ofCalls (p.moduleCalls ++ p.importCalls) := by
  rw [graph, Graph.ofCalls, GraphBuilder.run, List.foldl_append, moduleCalls, importCalls,
    List.foldl_map, List.foldl_flatMap]
  simp only [List.foldl_map, addEdge_eq_perform]
  rfl

theorem statement?_importCall (id : String) (e : ImportEdge) :
    (importCall id e).statement? = some ⟨id, e.target?⟩ := by
  rw [importCall]
  cases e.target? <;> rfl

theorem filterMap_moduleCalls (p : Project) : p.moduleCalls.filterMap Call.statement? = [] := by
  rw [moduleCalls, List.filterMap_eq_nil_iff]
  intro call hcall
  obtain ⟨entry, -, rfl⟩ := List.mem_map.mp hcall
  rfl

theorem filterMap_importCalls (p : Project) :
    p.importCalls.filterMap Call.statement? = p.statements := by
  rw [importCalls, statements, List.filterMap_flatMap]
  simp only [List.filterMap_map, Function.comp_def, statement?_importCall, List.filterMap_eq_map']

/-! ## No call is refused -/

theorem supports_moduleCalls {call : Call} (hcall : call ∈ p.moduleCalls) (b : GraphBuilder) :
    b.Supports call := by
  obtain ⟨entry, -, rfl⟩ := List.mem_map.mp hcall
  intro s hs
  cases hs

theorem mem_nodes_moduleCalls (hid : id ∈ p.ids) :
    id ∈ (GraphBuilder.run p.moduleCalls).nodes := by
  obtain ⟨facts, hfacts⟩ := Keyed.mem_keys_iff.mp hid
  rw [GraphBuilder.run, GraphBuilder.mem_nodes_foldl]
  exact Or.inr ⟨facts.language, List.mem_map.mpr ⟨_, Keyed.find?_eq_some_iff.mp hfacts, rfl⟩⟩

/-- After the modules, the calls for the imports of a linked project name known modules. -/
theorem supports_importCalls (h : p.Linked) {call : Call} (hcall : call ∈ p.importCalls) :
    (GraphBuilder.run p.moduleCalls).Supports call := by
  obtain ⟨⟨id, facts⟩, hentry, hmem⟩ := List.mem_flatMap.mp hcall
  obtain ⟨e, he, rfl⟩ := List.mem_map.mp hmem
  have hfacts : p.facts? id = some facts := Keyed.find?_eq_some_iff.mpr hentry
  intro s hs
  obtain rfl := Option.some.inj ((statement?_importCall id e).symm.trans hs)
  refine ⟨mem_nodes_moduleCalls (Keyed.mem_keys_iff.mpr ⟨facts, hfacts⟩), fun t ht => ?_⟩
  exact mem_nodes_moduleCalls (h id facts hfacts e he t ht)

/-- No call is refused. -/
theorem foldlM_calls (h : p.Linked) :
    (p.moduleCalls ++ p.importCalls).foldlM GraphBuilder.perform? {}
      = some (GraphBuilder.run (p.moduleCalls ++ p.importCalls)) := by
  rw [List.foldlM_append, GraphBuilder.foldlM_perform? fun _ hcall => supports_moduleCalls hcall _,
    GraphBuilder.run, List.foldl_append]
  exact GraphBuilder.foldlM_perform? fun _ hcall => supports_importCalls h hcall

theorem accepted_calls (h : p.Linked) :
    GraphBuilder.accepted {} (p.moduleCalls ++ p.importCalls) = p.statements := by
  rw [GraphBuilder.accepted_append,
    GraphBuilder.accepted_eq_filterMap fun _ hcall => supports_moduleCalls hcall _,
    filterMap_moduleCalls, List.nil_append]
  exact (GraphBuilder.accepted_eq_filterMap fun _ hcall => supports_importCalls h hcall).trans
    (filterMap_importCalls p)

/-! ## The counters of a linked project -/

/-- The graph of a linked project counts its imports. -/
theorem counts_graph (h : p.Linked) :
    ∃ b : GraphBuilder, p.graph = b.build ∧ b.Counts p.statements := by
  refine ⟨GraphBuilder.run (p.moduleCalls ++ p.importCalls), graph_eq_ofCalls p, ?_⟩
  rw [← accepted_calls h]
  exact GraphBuilder.counts_run _

/-- The statements of a module are its imports. -/
theorem leads_statements (hfacts : p.facts? id = some facts) :
    Statement.leads p.statements id = facts.edges.map (·.target?) := by
  have hentry : (id, facts) ∈ p.modules.entries := Keyed.find?_eq_some_iff.mp hfacts
  rw [Statement.leads, statements, filter_flatMap_eq_of_mem p.modules.keys_nodup hentry]
  · simp
  · -- the statements of an entry have its module as their source
    intro entry s hs
    obtain ⟨e, -, rfl⟩ := List.mem_map.mp hs
    rfl

/-- The modules of the graph are those of the project. -/
theorem ids_graph (p : Project) : p.graph.ids = p.ids := by
  refine p.graph.ids_pairwise.eq_of_mem_iff p.modules.keys_pairwise fun id => ?_
  rw [graph_eq_ofCalls, Graph.ofCalls, GraphBuilder.mem_ids_build, GraphBuilder.run,
    GraphBuilder.mem_nodes_foldl]
  constructor
  · rintro (hempty | ⟨language, hcall⟩)
    · exact absurd hempty Std.TreeMap.not_mem_emptyc
    · rcases List.mem_append.mp hcall with hmodule | himport
      · -- the calls for the modules add one for each entry
        obtain ⟨entry, hentry, heq⟩ := List.mem_map.mp hmodule
        cases heq
        exact List.mem_map.mpr ⟨entry, hentry, rfl⟩
      · -- an import makes a statement, adding a module does not
        obtain ⟨entry, -, hmem⟩ := List.mem_flatMap.mp himport
        obtain ⟨e, -, heq⟩ := List.mem_map.mp hmem
        have hnone := statement?_importCall entry.1 e
        rw [heq] at hnone
        cases hnone
  · intro hid
    obtain ⟨facts, hfacts⟩ := Keyed.mem_keys_iff.mp hid
    refine Or.inr ⟨facts.language, List.mem_append_left _ (List.mem_map.mpr ⟨(id, facts), ?_, rfl⟩)⟩
    exact Keyed.find?_eq_some_iff.mp hfacts

/-- The statements of a linked project lead out of it or to one of its modules, and none is missing.
-/
theorem externalCount_add_sum_afferent (h : p.Linked) :
    p.graph.externalCount + (p.graph.ids.map p.graph.afferent).sum
      = (p.modules.values.map fun facts => facts.edges.length).sum := by
  obtain ⟨b, hgraph, hcounts⟩ := counts_graph h
  have hefferent : ∀ entry ∈ p.modules.entries,
      p.graph.efferent entry.1 = entry.2.edges.length := by
    intro entry hentry
    have hfacts : p.facts? entry.1 = some entry.2 := Keyed.find?_eq_some_iff.mpr hentry
    rw [hgraph, hcounts.efferent, leads_statements hfacts, List.length_map]
  have hsum : p.graph.externalCount + (p.graph.ids.map p.graph.afferent).sum
      = (p.graph.ids.map p.graph.efferent).sum := by
    rw [hgraph]
    exact hcounts.externalCount_add_sum_afferent
  rw [hsum, ids_graph, ids, Keyed.keys, Keyed.values, List.map_map, List.map_map]
  exact congrArg List.sum (List.map_congr_left hefferent)

/-! ## Linking -/

theorem facts?_link (r : Resolver) (id : String) :
    (p.link r).facts? id = (p.facts? id).map fun facts =>
      { facts with edges := facts.extraction.imports.map fun i =>
          ⟨i, r.resolve i id facts.language⟩ } := by
  rw [facts?, link, Keyed.find?_map]
  rfl

theorem ids_link (r : Resolver) : (p.link r).ids = p.ids := by
  rw [ids, link, Keyed.keys_map]
  rfl

/-- With its own resolver a project is linked to its own modules. -/
theorem linked_link (p : Project) (manifest : Manifest) :
    (p.link (p.resolver manifest)).Linked := by
  intro id facts hfacts e he t ht
  rw [facts?_link, Option.map_eq_some_iff] at hfacts
  obtain ⟨old, -, rfl⟩ := hfacts
  obtain ⟨i, -, rfl⟩ := List.mem_map.mp he
  rw [ids_link]
  exact Resolver.mem_of_resolve ht

/-- The counters of a module are those of the resolutions of its imports. -/
theorem counts_link (manifest : Manifest) (hfacts : p.facts? id = some facts) :
    let r := p.resolver manifest
    let g := (p.link r).graph
    let resolutions := facts.extraction.imports.map fun i => r.resolve i id facts.language
    g.efferent id = resolutions.length ∧
    (g.module? id).map (·.externals) = some (resolutions.count .external) ∧
    (g.dependencies id).Pairwise (· < ·) ∧
    (∀ t, t ∈ g.dependencies id ↔ ∃ hops, .internal t hops ∈ resolutions) ∧
    ∀ t, g.statementsBetween id t = resolutions.countP (·.target? = some t) := by
  intro r g resolutions
  obtain ⟨b, hgraph, hcounts⟩ := counts_graph (linked_link p manifest)
  have hg : g = b.build := hgraph
  have hlinked : (p.link r).facts? id = some _ := (facts?_link r id).trans (by rw [hfacts]; rfl)
  have hleads : Statement.leads (p.link r).statements id = resolutions.map (·.target?) := by
    rw [leads_statements hlinked, List.map_map, List.map_map]
    rfl
  have hid : id ∈ g.ids := by
    rw [ids_graph, ids_link]
    exact Keyed.mem_keys_iff.mpr ⟨facts, hfacts⟩
  refine ⟨?_, ?_, ?_, fun t => ?_, fun t => ?_⟩
  · rw [hg, hcounts.efferent, hleads, List.length_map]
  · rw [Graph.map_externals_module? hid, hg, hcounts.externals, hleads, List.count_eq_countP,
      List.count_eq_countP, List.countP_map]
    refine congrArg some (List.countP_congr fun resolution _ => ?_)
    simp [Resolution.target?_eq_none_iff]
  · rw [hg]
    exact b.dependencies_build_pairwise id
  · have hedge : t ∈ g.dependencies id ↔ some t ∈ resolutions.map (·.target?) := by
      rw [← hleads, hg]
      exact hcounts.edge_iff
    rw [hedge, List.mem_map]
    simp only [Resolution.target?_eq_some_iff]
    constructor
    · rintro ⟨_, hmem, hops, rfl⟩
      exact ⟨hops, hmem⟩
    · rintro ⟨hops, hmem⟩
      exact ⟨_, hmem, hops, rfl⟩
  · rw [hg, hcounts.statementsBetween, hleads, List.count_eq_countP, List.countP_map]
    refine List.countP_congr fun resolution _ => ?_
    simp

/-- Linked by its own files, a project keeps all its imports. They lead to its own modules or are
external, and none of the calls that build the graph is refused. The graph counts the imports of
each module, the external ones among them, and those that lead to each other module. The external
imports and those that lead to a module are all there are. -/
theorem graph_link (p : Project) (manifest : Manifest) :
    let r := p.resolver manifest
    let linked := p.link r
    let g := linked.graph
    let calls := linked.moduleCalls ++ linked.importCalls
    (∀ i importer language module hops,
      r.resolve i importer language = .internal module hops → module ∈ p.ids) ∧
    (g = .ofCalls calls ∧ calls.foldlM GraphBuilder.perform? {} = some (GraphBuilder.run calls)) ∧
    g.ids = p.ids ∧
    (∀ id facts, p.facts? id = some facts →
      let resolutions := facts.extraction.imports.map fun i => r.resolve i id facts.language
      g.efferent id = resolutions.length ∧
      (g.module? id).map (·.externals) = some (resolutions.count .external) ∧
      (g.dependencies id).Pairwise (· < ·) ∧
      (∀ t, t ∈ g.dependencies id ↔ ∃ hops, .internal t hops ∈ resolutions) ∧
      ∀ t, g.statementsBetween id t = resolutions.countP (·.target? = some t)) ∧
    g.externalCount + (g.ids.map g.afferent).sum
      = (p.modules.values.map fun facts => facts.extraction.imports.length).sum := by
  intro r linked g calls
  have hlinked := linked_link p manifest
  refine ⟨fun i importer language module hops h => ?_, ⟨graph_eq_ofCalls _, foldlM_calls hlinked⟩,
    ?_, fun id facts hfacts => counts_link manifest hfacts, ?_⟩
  · exact Resolver.mem_of_resolve (Resolution.target?_eq_some_iff.mpr ⟨hops, h⟩)
  · rw [ids_graph, ids_link]
  · rw [externalCount_add_sum_afferent hlinked]
    simp [Keyed.values, link, Keyed.map, Function.comp_def]

end Project

end ModuleAtlas
