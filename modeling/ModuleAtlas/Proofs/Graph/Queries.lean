import Mathlib.Data.Set.Function
import ModuleAtlas.Proofs.Graph.Statements
import ModuleAtlas.Proofs.Text.Bytes

/-!
# The queries of a graph agree

A graph keeps modules under their names and, for each, its counters and the numbers of statements for
each module that it imports. Every query reads another part of that. Whatever calls build the graph,
the parts fit together (`Graph.queries_ofCalls`): calls are refused exactly if they name a module
that was not added, and then change nothing; the modules are those that were added, in ascending
order, and each is found under its own name; an edge shows from both of its ends, and it exists
exactly if an import was accepted; and the counters are sums over the edges.
-/

namespace ModuleAtlas

open Std (TreeMap)

namespace GraphBuilder

variable {b : GraphBuilder} {calls : List Call} {call : Call} {id source target : String}

/-! ## Refused calls -/

/-- The modules that have to be known for a call. -/
def Call.names : Call → List String
  | .addModule _ _ => []
  | .addImport source target => [source, target]
  | .addExternal source => [source]

/-- The module that a call adds, with its language. -/
def Call.addition? : Call → Option (String × Language)
  | .addModule id language => some (id, language)
  | .addImport _ _ => none
  | .addExternal _ => none

/-- The modules that some calls add, as often as they are added. -/
def additions (calls : List Call) : List (String × Language) := calls.filterMap Call.addition?

/-- The names of the modules that some calls add. -/
def added (calls : List Call) : List String := (additions calls).map (·.1)

theorem mem_additions {language : Language} :
    (id, language) ∈ additions calls ↔ .addModule id language ∈ calls := by
  rw [additions, List.mem_filterMap]
  constructor
  · rintro ⟨call, hcall, hadds⟩
    cases call <;> cases hadds
    exact hcall
  · intro hcall
    exact ⟨_, hcall, rfl⟩

theorem mem_added : id ∈ added calls ↔ ∃ language, .addModule id language ∈ calls := by
  simp [added, mem_additions]

/-- The known modules are those that were added. -/
theorem mem_nodes_run : id ∈ (run calls).nodes ↔ id ∈ added calls := by
  rw [run, mem_nodes_foldl, mem_added]
  simp

theorem supports_iff : b.Supports call ↔ ∀ id ∈ call.names, id ∈ b.nodes := by
  cases call with
  | addModule id language => simp [Supports, Call.statement?, Call.names]
  | addImport source target => simp [Supports, Call.statement?, Call.names, Accepts]
  | addExternal source => simp [Supports, Call.statement?, Call.names, Accepts]

/-- A call is refused exactly if it names an unknown module. -/
theorem perform?_eq_none_iff : b.perform? call = none ↔ ∃ id ∈ call.names, id ∉ b.nodes := by
  have hsupports : b.perform? call = none ↔ ¬ b.Supports call := by
    constructor
    · intro hnone hsupports
      rw [perform?_eq_some hsupports] at hnone
      cases hnone
    · intro hnot
      rcases b.perform_cases call with
        ⟨id, language, rfl, -⟩ | ⟨source, target, rfl, ha, -⟩ | ⟨source, rfl, ha, -⟩ | ⟨hnone, -⟩
      · exact absurd (supports_iff.mpr (by simp [Call.names])) hnot
      · exact absurd (fun s hs => by cases hs; exact ha) hnot
      · exact absurd (fun s hs => by cases hs; exact ha) hnot
      · exact hnone
  rw [hsupports, supports_iff]
  push Not
  rfl

theorem isSome_perform?_addImport : (b.perform? (.addImport source target)).isSome = true ↔
    b.Accepts source (some target) := by
  rw [← Option.ne_none_iff_isSome, ne_eq, perform?_eq_none_iff]
  simp [Call.names, Accepts]

theorem addModule_of_mem (h : id ∈ b.nodes) (language : Language) : b.addModule id language = b := by
  rw [addModule, insertIfNew_of_mem h]

/-- After some calls, those calls are refused that name a module that was not added, and neither they
nor further additions of a module change anything. -/
structure Refuses (calls : List Call) : Prop where
  refused_iff : ∀ call, (run calls).perform? call = none ↔ ∃ id ∈ call.names, id ∉ added calls
  refused : ∀ call, (run calls).perform? call = none → run (calls ++ [call]) = run calls
  again : ∀ id ∈ added calls, ∀ language, run (calls ++ [.addModule id language]) = run calls

theorem refuses (calls : List Call) : Refuses calls where
  refused_iff := by
    intro call
    simp only [perform?_eq_none_iff, mem_nodes_run]
  refused := by
    intro call hnone
    rw [run_concat, perform, hnone, Option.getD_none]
  again := by
    intro id hid language
    rw [run_concat]
    exact addModule_of_mem (mem_nodes_run.mpr hid) language

/-! ## Names and languages -/

/-- Every module is kept under its own name, with the first of the languages with which it was
added. -/
def Labelled (b : GraphBuilder) (languages : List (String × Language)) : Prop :=
  ∀ id, b.nodes[id]?.map (fun node => (node.module.id, node.module.language))
    = (languages.lookup id).map fun language => (id, language)

theorem Labelled.addModule {languages : List (String × Language)} (h : b.Labelled languages)
    (id : String) (language : Language) :
    (b.addModule id language).Labelled (languages ++ [(id, language)]) := by
  intro other
  have hother := h other
  rw [nodes_addModule, List.lookup_append]
  by_cases hid : other = id
  · subst hid
    by_cases hmem : other ∈ b.nodes
    · obtain ⟨node, hnode⟩ := mem_nodes_iff.mp hmem
      rw [hnode, Option.map_some, eq_comm, Option.map_eq_some_iff] at hother
      obtain ⟨first, hfirst, hlabel⟩ := hother
      rw [if_neg (by simp [hmem]), hnode, hfirst, Option.map_some, ← hlabel]
      rfl
    · -- the module is new, and so is its language
      rw [TreeMap.getElem?_eq_none hmem, Option.map_none, eq_comm, Option.map_eq_none_iff] at hother
      simp [hmem, hother]
  · have hne : (other == id) = false := by simpa using hid
    simp [hid, hne, hother, List.lookup_cons]

theorem Labelled.record {languages : List (String × Language)} (h : b.Labelled languages)
    (source : String) (target? : Option String) : (b.record source target?).Labelled languages := by
  intro other
  rw [nodes_record, ← h other]
  split
  · cases target? <;> simp [Function.comp_def, NodeDraft.count, countStatement, countExternal]
  · rfl

theorem Labelled.perform {languages : List (String × Language)} (h : b.Labelled languages)
    (call : Call) : (b.perform call).Labelled (languages ++ call.addition?.toList) := by
  rcases b.perform_cases call with
    ⟨id, language, rfl, hb⟩ | ⟨source, target, rfl, -, hb⟩ | ⟨source, rfl, -, hb⟩ | ⟨hnone, hb⟩
  · rw [hb]
    exact h.addModule id language
  · rw [hb]
    simpa [Call.addition?] using h.record source (some target)
  · rw [hb]
    simpa [Call.addition?] using h.record source none
  · rw [hb]
    cases call with
    | addModule id language => cases hnone
    | addImport source target => simpa [Call.addition?] using h
    | addExternal source => simpa [Call.addition?] using h

/-- Whatever is called, every module has its own name and the language with which it was first
added. -/
theorem labelled_run (calls : List Call) : (run calls).Labelled (additions calls) := by
  induction calls using List.reverseRecOn with
  | nil =>
    intro id
    rfl
  | append_singleton calls call ih =>
    have hlast : [call].filterMap Call.addition? = call.addition?.toList := by
      cases call <;> rfl
    rw [run_concat, additions, List.filterMap_append, hlast]
    exact ih.perform call

/-- An import between two modules was accepted. -/
def Imported (calls : List Call) (source target : String) : Prop :=
  ∃ earlier later, calls = earlier ++ .addImport source target :: later ∧
    ((run earlier).perform? (.addImport source target)).isSome = true

theorem module?_build (b : GraphBuilder) (id : String) :
    b.build.module? id = b.nodes[id]?.map (·.module) := by
  rw [Graph.module?, find?_build, Option.map_map]
  rfl

theorem Labelled.id_eq {languages : List (String × Language)} (h : b.Labelled languages)
    {m : Module} (hm : b.build.module? id = some m) : m.id = id := by
  have hlabel := h id
  rw [module?_build, Option.map_eq_some_iff] at hm
  obtain ⟨node, hnode, rfl⟩ := hm
  rw [hnode, Option.map_some, eq_comm, Option.map_eq_some_iff] at hlabel
  obtain ⟨language, -, hpair⟩ := hlabel
  exact (congrArg Prod.fst hpair).symm

end GraphBuilder

namespace Graph

open GraphBuilder (Call Imported)

variable {g : Graph} {calls : List Call} {statements : List Statement} {a b id : String}

/-! ## Modules -/

/-- The modules of a graph are listed in the order of their encoded names, and each is found under
its own name. -/
structure Indexes (g : Graph) (names : List String) : Prop where
  ascending : g.ids.Pairwise fun a b => Text.bytes a < Text.bytes b
  mem_ids : ∀ id, id ∈ g.ids ↔ id ∈ names
  map_id : g.modules.map (·.id) = g.ids
  module?_iff : ∀ id m, g.module? id = some m ↔ m ∈ g.modules ∧ m.id = id
  bijOn : Set.BijOn g.module? {id | id ∈ names} (some '' {m | m ∈ g.modules})

theorem mem_modules {m : Module} : m ∈ g.modules ↔ ∃ id, g.module? id = some m := by
  simp only [modules, Keyed.values, List.map_map, List.mem_map, module?, Option.map_eq_some_iff,
    Keyed.find?_eq_some_iff, Prod.exists, Function.comp_apply]

/-- The modules of a graph in which each is kept under its own name. -/
theorem indexes_of_id_eq (hid : ∀ id m, g.module? id = some m → m.id = id) {names : List String}
    (hnames : ∀ id, id ∈ g.ids ↔ id ∈ names) : g.Indexes names where
  ascending := g.ids_pairwise.imp Text.bytes_lt_bytes_iff.mpr
  mem_ids := hnames
  map_id := by
    rw [modules, ids, Keyed.values, Keyed.keys, List.map_map, List.map_map]
    apply List.map_congr_left
    rintro ⟨id, node⟩ hentry
    apply hid
    rw [module?, Keyed.find?_eq_some_iff.mpr hentry, Option.map_some]
  module?_iff := by
    intro id m
    rw [mem_modules]
    constructor
    · intro hm
      exact ⟨⟨id, hm⟩, hid id m hm⟩
    · rintro ⟨⟨other, hm⟩, rfl⟩
      rwa [hid other m hm]
  bijOn := by
    have hfound : ∀ id, id ∈ names ↔ ∃ m, g.module? id = some m := by
      intro id
      simp only [← hnames, ids, Keyed.mem_keys_iff, module?, Option.map_eq_some_iff, exists_comm,
        exists_eq_right']
    refine ⟨fun id hmem => ?_, fun a ha b hb heq => ?_, ?_⟩
    · obtain ⟨m, hm⟩ := (hfound id).mp hmem
      exact ⟨m, mem_modules.mpr ⟨id, hm⟩, hm.symm⟩
    · obtain ⟨m, hm⟩ := (hfound a).mp ha
      rw [← hid a m hm, hid b m (heq.symm.trans hm)]
    · rintro _ ⟨m, hm, rfl⟩
      obtain ⟨id, hfind⟩ := mem_modules.mp hm
      exact ⟨id, (hfound id).mpr ⟨m, hfind⟩, hfind⟩

/-! ## Edges -/

/-- An edge shows in the same way from both of its ends. -/
structure Links (g : Graph) (imported : String → String → Prop) : Prop where
  mem_dependencies : ∀ a b, b ∈ g.dependencies a ↔ imported a b
  mem_dependents : ∀ a b, a ∈ g.dependents b ↔ imported a b
  hasEdge_iff : ∀ a b, g.hasEdge a b = true ↔ imported a b
  dependencies_ascending : ∀ a,
    (g.dependencies a).Pairwise fun b c => Text.bytes b < Text.bytes c
  dependents_ascending : ∀ b, (g.dependents b).Pairwise fun a c => Text.bytes a < Text.bytes c
  fanout_eq : ∀ a, g.fanout a = (g.dependencies a).length

theorem links_ofCalls (calls : List Call) : (ofCalls calls).Links (Imported calls) := by
  have hedge : ∀ a b, (ofCalls calls).Edge a b ↔ Imported calls a b := by
    intro a b
    simp only [edge_ofCalls, Imported, GraphBuilder.isSome_perform?_addImport]
  refine ⟨hedge, fun a b => ?_, fun a b => ?_, fun a => ?_, fun b => ?_, fun a => ?_⟩
  · rw [mem_dependents_iff (closed_ofCalls calls), hedge]
  · rw [hasEdge_iff, hedge]
  · exact (GraphBuilder.dependencies_build_pairwise _ a).imp Text.bytes_lt_bytes_iff.mpr
  · exact ((ofCalls calls).ids_pairwise.filter _).imp Text.bytes_lt_bytes_iff.mpr
  · exact (List.length_map _).symm

/-! ## Counters -/

/-- An edge with the number of its import statements. -/
structure WeightedEdge where
  source : String
  target : String
  imports : ℕ
  deriving DecidableEq, Repr

/-- All edges in the order of their sources, and those of one source in the order of their targets. -/
def weightedEdges (g : Graph) : List WeightedEdge :=
  g.ids.flatMap fun source => (g.targets source).map fun (target, imports) =>
    ⟨source, target, imports⟩

theorem targets_eq_nil (hid : id ∉ g.ids) : g.targets id = [] := by
  have hnone : g.nodes.find? id = none := by
    rw [Option.eq_none_iff_forall_ne_some]
    intro node hnode
    exact hid (Keyed.mem_keys_iff.mpr ⟨node, hnode⟩)
  rw [targets, hnone]
  rfl

/-- The edges of one source are its targets. -/
theorem filter_source_weightedEdges (g : Graph) (a : String) :
    g.weightedEdges.filter (·.source = a)
      = (g.targets a).map fun (target, imports) => ⟨a, target, imports⟩ := by
  have hsource : ∀ source, ∀ e ∈ (g.targets source).map (fun (target, imports) =>
      (⟨source, target, imports⟩ : WeightedEdge)), e.source = source := by
    intro source e he
    obtain ⟨entry, -, rfl⟩ := List.mem_map.mp he
    rfl
  by_cases ha : a ∈ g.ids
  · have hlabels : (g.ids.map fun source => source).Nodup := by simpa using g.ids_nodup
    rw [weightedEdges, filter_flatMap_eq_of_mem hlabels ha]
    intro source e he
    rw [hsource source e he]
  · rw [targets_eq_nil ha, List.map_nil, List.filter_eq_nil_iff]
    intro e he heq
    obtain ⟨source, hmem, he⟩ := List.mem_flatMap.mp he
    apply ha
    rwa [← of_decide_eq_true heq, hsource source e he]

theorem mem_weightedEdges {e : WeightedEdge} :
    e ∈ g.weightedEdges ↔ (e.target, e.imports) ∈ g.targets e.source := by
  have hfilter : e ∈ g.weightedEdges ↔ e ∈ g.weightedEdges.filter (·.source = e.source) := by
    simp [List.mem_filter]
  rw [hfilter, filter_source_weightedEdges, List.mem_map]
  constructor
  · rintro ⟨entry, hentry, heq⟩
    rw [← heq]
    exact hentry
  · intro hentry
    exact ⟨_, hentry, rfl⟩

theorem nodup_weightedEdges (hnodup : ∀ a, (g.dependencies a).Nodup) :
    (g.weightedEdges.map fun e => (e.source, e.target)).Nodup := by
  have hpairs : (g.weightedEdges.map fun e => (e.source, e.target))
      = g.ids.flatMap fun source => (g.dependencies source).map fun target => (source, target) := by
    rw [weightedEdges, List.map_flatMap]
    simp only [dependencies, List.map_map, Function.comp_def]
  rw [hpairs, List.nodup_flatMap]
  refine ⟨fun source _ => (hnodup source).map (Prod.mk_right_injective source), ?_⟩
  apply g.ids_nodup.imp
  intro a b hne pair ha hb
  obtain ⟨_, -, rfl⟩ := List.mem_map.mp ha
  obtain ⟨_, -, heq⟩ := List.mem_map.mp hb
  exact hne (congrArg Prod.fst heq).symm

/-- The statements that lead to a module are those on the edges to it. -/
theorem afferent_eq_sum_edges (hnodup : ∀ a, (g.dependencies a).Nodup) (b : String) :
    g.afferent b = ((g.weightedEdges.filter (·.target = b)).map (·.imports)).sum := by
  rw [afferent, total_eq_sum, weightedEdges, List.filter_flatMap, List.map_flatMap,
    List.flatMap_def, List.sum_flatten, List.map_map]
  apply congrArg List.sum
  apply List.map_congr_left
  intro source _
  rw [statementsBetween, ← sum_filter_eq_lookup (hnodup source), Function.comp_apply,
    List.filter_map, List.map_map]
  rfl

theorem edgeCount_eq_length_edges (g : Graph) : g.edgeCount = g.weightedEdges.length := by
  rw [weightedEdges, List.length_flatMap]
  simp only [List.length_map]
  rfl

/-- The counters of a graph are those of some statements, and sums over its edges. -/
structure Tallies (g : Graph) (statements : List Statement) : Prop where
  nodup : (g.weightedEdges.map fun e => (e.source, e.target)).Nodup
  mem_iff : ∀ e, e ∈ g.weightedEdges ↔
    0 < e.imports ∧ e.imports = statements.count ⟨e.source, some e.target⟩
  externals : ∀ a, g.externals a = statements.count ⟨a, none⟩
  efferent : ∀ a, g.efferent a
    = g.externals a + ((g.weightedEdges.filter (·.source = a)).map (·.imports)).sum
  afferent : ∀ b, g.afferent b
    = ((g.weightedEdges.filter (·.target = b)).map (·.imports)).sum
  afferent_eq_countP : ∀ b, g.afferent b = statements.countP (·.target? = some b)
  edgeCount_eq_sum : g.edgeCount = (g.ids.map g.fanout).sum
  edgeCount_eq_length : g.edgeCount = g.weightedEdges.length

end Graph

/-- A statement is counted where it leads from its source. -/
theorem Statement.count_leads (statements : List Statement) (source : String)
    (target? : Option String) :
    (leads statements source).count target? = statements.count ⟨source, target?⟩ := by
  rw [leads, List.count_eq_countP, List.countP_map, List.countP_filter, List.count_eq_countP]
  apply List.countP_congr
  rintro ⟨other, other?⟩ _
  simp [and_comm]

namespace GraphBuilder.Counts

variable {b : GraphBuilder} {statements : List Statement}

/-- The targets of a module are those of its statements, with the number of statements. -/
theorem mem_targets (h : b.Counts statements) {source target : String} {imports : ℕ} :
    (target, imports) ∈ b.build.targets source ↔
      0 < imports ∧ imports = (Statement.leads statements source).count (some target) := by
  rw [Graph.targets, find?_build]
  cases hnode : b.nodes[source]? with
  | none =>
    simp only [h.leads_eq_nil hnode, Option.map_none, Option.getD_none, List.count_nil]
    constructor
    · intro hmem
      cases hmem
    · rintro ⟨hpos, rfl⟩
      omega
  | some node =>
    simp only [Option.map_some, Option.getD_some, TreeMap.mem_toList_iff_getElem?_eq_some,
      (h.counts source node hnode).targets]
    constructor
    · intro hfound
      split at hfound
      · rename_i hlead
        cases hfound
        exact ⟨List.count_pos_iff.mpr hlead, rfl⟩
      · cases hfound
    · rintro ⟨hpos, rfl⟩
      rw [if_pos (List.count_pos_iff.mp hpos)]

theorem dependencies_nodup (b : GraphBuilder) (id : String) : (b.build.dependencies id).Nodup := by
  refine (b.dependencies_build_pairwise id).imp ?_
  rintro a c hlt rfl
  exact String.lt_irrefl a hlt

/-- The statements of a module are the external ones and those on its edges. -/
theorem efferent_eq_sum_edges (h : b.Counts statements) (a : String) : b.build.efferent a
    = b.build.externals a
      + ((b.build.weightedEdges.filter (·.source = a)).map (·.imports)).sum := by
  have hcounts : (b.build.targets a).map (·.2) = (b.build.dependencies a).map fun target =>
      (Statement.leads statements a).count (some target) := by
    rw [Graph.dependencies, List.map_map]
    apply List.map_congr_left
    intro entry hentry
    exact (h.mem_targets.mp hentry).2
  have hall := Graph.count_none_add_sum_count (dependencies_nodup b a) fun target hlead =>
    h.edge_iff.mpr hlead
  rw [h.efferent, ← hall, h.externals, Graph.filter_source_weightedEdges, List.map_map, ← hcounts]
  rfl

/-- The number of statements that lead to a module. -/
theorem afferent_eq_countP (h : b.Counts statements) (target : String) :
    b.build.afferent target = statements.countP (·.target? = some target) := by
  have hlabel : ∀ s ∈ statements, s.source ∈ b.build.ids :=
    fun s hs => mem_ids_build.mpr (h.known s hs).1
  rw [Graph.afferent, total_eq_sum, ← sum_countP (·.source) b.build.ids_nodup hlabel]
  apply congrArg List.sum
  apply List.map_congr_left
  intro source _
  rw [h.statementsBetween, Statement.leads, List.count_eq_countP, List.countP_map]
  apply List.countP_congr
  simp

theorem tallies (h : b.Counts statements) : b.build.Tallies statements where
  nodup := Graph.nodup_weightedEdges (dependencies_nodup b)
  mem_iff := by
    intro e
    rw [Graph.mem_weightedEdges, h.mem_targets, Statement.count_leads]
  externals := by
    intro a
    rw [h.externals, Statement.count_leads]
  efferent := h.efferent_eq_sum_edges
  afferent := Graph.afferent_eq_sum_edges (dependencies_nodup b)
  afferent_eq_countP := h.afferent_eq_countP
  edgeCount_eq_sum := rfl
  edgeCount_eq_length := Graph.edgeCount_eq_length_edges _

end GraphBuilder.Counts

/-- After whatever calls on a builder, the calls that name unknown modules are refused and change
nothing, nor does adding a module again; the graph lists the added modules in order and finds each
under its name; its edges are the accepted imports, from both ends; and its counters are those of the
accepted statements and sums over the edges. -/
theorem Graph.queries_ofCalls (calls : List GraphBuilder.Call) :
    let g := ofCalls calls
    GraphBuilder.Refuses calls ∧ g.Indexes (GraphBuilder.added calls) ∧
    g.Links (GraphBuilder.Imported calls) ∧ g.Tallies (GraphBuilder.accepted {} calls) := by
  intro g
  have hid : ∀ id m, g.module? id = some m → m.id = id :=
    fun id m hm => (GraphBuilder.labelled_run calls).id_eq hm
  have hnames : ∀ id, id ∈ g.ids ↔ id ∈ GraphBuilder.added calls :=
    fun id => GraphBuilder.mem_ids_build.trans GraphBuilder.mem_nodes_run
  exact ⟨GraphBuilder.refuses calls, indexes_of_id_eq hid hnames, links_ofCalls calls,
    (GraphBuilder.counts_run calls).tallies⟩

end ModuleAtlas
