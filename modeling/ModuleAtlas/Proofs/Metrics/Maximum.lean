import ModuleAtlas.Proofs.Graph.Queries
import ModuleAtlas.Proofs.Metrics.Summary

/-!
# Who attains the maxima

A maximum comes with the first item that has it. The modules of a graph come in ascending order, so
of the modules with the largest count the least is named. The imports of a project come in the order
of the modules and of the source.

The counts of a graph are those of its accepted statements: a fanout is the number of different
modules that statements lead to, whereas the coupling counts the statements. Averages are quotients
of rational numbers, and those are zero over nothing.

* `Graph.Attains` : a maximum with its module.
* `Graph.summaries_ofCalls` : what the four summaries are.
-/

namespace ModuleAtlas

/-! ## Maxima over modules -/

/-- The largest count over some modules, with the module that has it; of several such modules the
one whose name is least by its bytes. -/
structure Graph.Attains (ids : List String) (count : String → ℕ) (max : ℕ)
    (module : Option String) : Prop where
  le : ∀ id ∈ ids, count id ≤ max
  exists_eq : 0 < max → ∃ id ∈ ids, count id = max
  eq_some_iff : ∀ id, module = some id ↔ 0 < max ∧ id ∈ ids ∧ count id = max ∧
    ∀ other ∈ ids, count other = max → other ≠ id → Text.bytes id < Text.bytes other
  eq_none_iff : module = none ↔ ∀ id ∈ ids, count id = 0

/-- Of ascending modules the first with the largest count is the least. -/
theorem Graph.attains_firstMax {ids : List String} (hids : ids.Pairwise (· < ·))
    (count : String → ℕ) :
    Attains ids count (firstMax (ids.map fun id => (id, count id))).1
      (firstMax (ids.map fun id => (id, count id))).2 := by
  have hfirst := firstOfLargest_firstMax (ids.map fun id => (id, count id))
  set best := firstMax (ids.map fun id => (id, count id))
  have hnamed : 0 < best.1 → ∃ id, best.2 = some id ∧ id ∈ ids ∧ count id = best.1 ∧
      ∀ other ∈ ids, count other = best.1 → other ≠ id → Text.bytes id < Text.bytes other := by
    intro hpos
    obtain ⟨name, before, after, hlabel, hvalues, hbefore⟩ := hfirst.named hpos
    obtain ⟨front, rest, rfl, rfl, hrest⟩ := List.map_eq_append_iff.mp hvalues
    obtain ⟨id, behind, rfl, hid, -⟩ := List.map_eq_cons_iff.mp hrest
    obtain ⟨rfl, hcount⟩ := Prod.mk.inj hid
    refine ⟨id, hlabel, by simp, hcount, fun other hother heq hne => ?_⟩
    rw [Text.bytes_lt_bytes_iff]
    rcases List.mem_append.mp hother with hother | hother
    · exact absurd heq (hbefore _ (List.mem_map_of_mem hother)).ne
    · rcases List.mem_cons.mp hother with rfl | hother
      · exact absurd rfl hne
      · exact List.rel_of_pairwise_cons (List.pairwise_append.mp hids).2.1 hother
  refine ⟨List.forall_mem_map.mp hfirst.le, fun hpos => ?_, fun id => ⟨fun hsome => ?_, ?_⟩, ?_⟩
  · obtain ⟨id, -, hid, hcount, -⟩ := hnamed hpos
    exact ⟨id, hid, hcount⟩
  · have hpos : 0 < best.1 := hfirst.isSome_iff.mp (by rw [hsome]; rfl)
    obtain ⟨named, hlabel, hid⟩ := hnamed hpos
    obtain rfl := Option.some.inj (hlabel.symm.trans hsome)
    exact ⟨hpos, hid⟩
  · -- there is one least module only
    rintro ⟨hpos, hid, hcount, hleast⟩
    obtain ⟨named, hlabel, hmem, heq, hleast'⟩ := hnamed hpos
    rw [hlabel, Option.some.injEq]
    by_contra hne
    exact List.lt_asymm (hleast named hmem heq hne) (hleast' id hid hcount (Ne.symm hne))
  · rw [hfirst.eq_none_iff, List.forall_mem_map]

/-! ## The counts of a graph -/

/-- The different modules that statements in a module lead to. -/
def Statement.targets (statements : List Statement) (id : String) : Finset String :=
  ((leads statements id).filterMap fun target? => target?).toFinset

namespace GraphBuilder.Counts

variable {b : GraphBuilder} {statements : List Statement}

theorem fanout_eq_card (h : b.Counts statements) (id : String) :
    b.build.fanout id = (Statement.targets statements id).card := by
  have htargets : (b.build.dependencies id).toFinset = Statement.targets statements id := by
    ext target
    have hedge : target ∈ b.build.dependencies id ↔ some target ∈ Statement.leads statements id :=
      h.edge_iff
    simp [Statement.targets, hedge]
  rw [← htargets, List.toFinset_card_of_nodup (dependencies_nodup b id)]
  exact (List.length_map _).symm

/-- All statements are in some module. -/
theorem sum_efferent (h : b.Counts statements) :
    (b.build.ids.map b.build.efferent).sum = statements.length := by
  have hlabel : ∀ s ∈ statements, s.source ∈ b.build.ids :=
    fun s hs => mem_ids_build.mpr (h.known s hs).1
  rw [← List.countP_true, ← sum_countP (·.source) b.build.ids_nodup hlabel]
  refine congrArg List.sum (List.map_congr_left fun id _ => ?_)
  rw [h.efferent, Statement.leads, List.length_map, List.countP_true]

/-- There is an edge exactly if a statement leads to a module. -/
theorem forall_fanout_eq_zero_iff (h : b.Counts statements) :
    (∀ id ∈ b.build.ids, b.build.fanout id = 0) ↔ ∀ s ∈ statements, s.target? = none := by
  constructor
  · intro hzero s hs
    have hcard := hzero s.source (mem_ids_build.mpr (h.known s hs).1)
    rw [h.fanout_eq_card, Finset.card_eq_zero] at hcard
    rw [Option.eq_none_iff_forall_ne_some]
    intro target htarget
    have hmem : target ∈ Statement.targets statements s.source := by
      rw [Statement.targets, List.mem_toFinset, List.mem_filterMap]
      exact ⟨some target, List.mem_map.mpr ⟨s, by simpa using hs, htarget⟩, rfl⟩
    rw [hcard] at hmem
    exact absurd hmem (Finset.notMem_empty target)
  · intro hnone id _
    rw [h.fanout_eq_card, Finset.card_eq_zero, Statement.targets, List.toFinset_eq_empty_iff,
      List.filterMap_eq_nil_iff]
    intro lead hlead
    obtain ⟨s, hs, rfl⟩ := List.mem_map.mp hlead
    exact hnone s (List.mem_filter.mp hs).1

theorem forall_afferent_eq_zero_iff (h : b.Counts statements) :
    (∀ id ∈ b.build.ids, b.build.afferent id = 0) ↔ ∀ s ∈ statements, s.target? = none := by
  simp only [h.afferent_eq_countP]
  constructor
  · intro hzero s hs
    rw [Option.eq_none_iff_forall_ne_some]
    intro target htarget
    have hid : target ∈ b.build.ids := mem_ids_build.mpr ((h.known s hs).2 target htarget)
    exact List.countP_eq_zero.mp (hzero target hid) s hs (decide_eq_true htarget)
  · intro hnone id _
    refine List.countP_eq_zero.mpr fun s hs => ?_
    simp [hnone s hs]

end GraphBuilder.Counts

/-! ## The summaries -/

/-- An exact mean is a quotient, which is zero over nothing. -/
theorem Average.mean_eq_div (sum count : ℕ) : (mean sum count : ℚ) = sum / count := by
  unfold mean
  split
  · rename_i hcount
    rw [hcount, Nat.cast_zero, div_zero]
    rfl
  · rfl

/-- The summary is about the depths of all modules. -/
structure DepthSummary.Describes (s : DepthSummary ℚ) (ids : List String) : Prop where
  average : s.average = ((ids.map Path.depth).sum : ℕ) / (ids.length : ℕ)
  le : ∀ id ∈ ids, Path.depth id ≤ s.max
  exists_eq : 0 < s.max → ∃ id ∈ ids, Path.depth id = s.max

/-- The summary counts the different modules to which statements in each module lead. -/
structure FanoutSummary.Describes (s : FanoutSummary ℚ) (ids : List String)
    (statements : List Statement) : Prop where
  average : s.average
    = ((ids.map fun id => (Statement.targets statements id).card).sum : ℕ) / (ids.length : ℕ)
  attains : Graph.Attains ids (fun id => (Statement.targets statements id).card) s.max s.maxModule
  eq_none_iff : s.maxModule = none ↔ ∀ statement ∈ statements, statement.target? = none

/-- The average is about all statements, and the maximum about those that lead to each module. -/
structure CouplingSummary.Describes (s : CouplingSummary ℚ) (ids : List String)
    (statements : List Statement) : Prop where
  average : s.averageEfferent = (statements.length : ℕ) / (ids.length : ℕ)
  attains : Graph.Attains ids (fun id => statements.countP (·.target? = some id)) s.maxAfferent
    s.maxAfferentModule
  eq_none_iff : s.maxAfferentModule = none ↔ ∀ statement ∈ statements, statement.target? = none

/-- The summary is about the steps up in some imports, each of which comes with its module. It names
the first import with the most steps, and its module, unless none has steps. -/
structure ComplexitySummary.Describes (s : ComplexitySummary ℚ)
    (imports : List (String × ImportEdge)) : Prop where
  relativeImports : s.relativeImports = imports.length
  average : s.average = ((imports.map (·.2.hops)).sum : ℕ) / (imports.length : ℕ)
  le : ∀ id e, (id, e) ∈ imports → e.hops ≤ s.max
  named : 0 < s.max → ∃ before id e after, imports = before ++ (id, e) :: after ∧
    e.hops = s.max ∧ (∀ other ∈ before, other.2.hops < s.max) ∧
    s.maxImport = some e.statement.source ∧ s.maxModule = some id
  maxImport_eq_none_iff : s.maxImport = none ↔ ∀ id e, (id, e) ∈ imports → e.hops = 0
  maxModule_eq_none_iff : s.maxModule = none ↔ ∀ id e, (id, e) ∈ imports → e.hops = 0

/-- Where every module has its own name, the depths are those of the names. -/
theorem Graph.describes_depthSummary {g : Graph} (hids : g.modules.map (·.id) = g.ids) :
    (g.depthSummary : DepthSummary ℚ).Describes g.ids := by
  have hdepths : g.modules.map Module.depth = g.ids.map Path.depth := by
    rw [← hids, List.map_map]
    rfl
  obtain ⟨hle, hmem⟩ := foldl_max_spec (g.ids.map Path.depth)
  rw [depthSummary, hdepths, total_eq_sum]
  refine ⟨?_, List.forall_mem_map.mp hle, fun hpos => List.mem_map.mp (hmem hpos)⟩
  rw [length_ids]
  exact Average.mean_eq_div _ _

namespace GraphBuilder.Counts

variable {b : GraphBuilder} {statements : List Statement}

theorem describes_fanoutSummary (h : b.Counts statements) :
    (b.build.fanoutSummary : FanoutSummary ℚ).Describes b.build.ids statements := by
  have hfanout : b.build.fanout = fun id => (Statement.targets statements id).card :=
    funext h.fanout_eq_card
  have hattains := Graph.attains_firstMax b.build.ids_pairwise b.build.fanout
  refine ⟨?_, hfanout ▸ hattains, ?_⟩
  · have hsum : total ((b.build.ids.map fun id => (id, b.build.fanout id)).map (·.2))
        = (b.build.ids.map fun id => (Statement.targets statements id).card).sum := by
      rw [List.map_map, total_eq_sum, ← hfanout]
      rfl
    rw [← hsum, Graph.length_ids]
    exact Average.mean_eq_div _ _
  · rw [← h.forall_fanout_eq_zero_iff]
    exact hattains.eq_none_iff

theorem describes_couplingSummary (h : b.Counts statements) :
    (b.build.couplingSummary : CouplingSummary ℚ).Describes b.build.ids statements := by
  have hafferent : b.build.afferent = fun id => statements.countP (·.target? = some id) :=
    funext h.afferent_eq_countP
  have hattains := Graph.attains_firstMax b.build.ids_pairwise b.build.afferent
  refine ⟨?_, hafferent ▸ hattains, ?_⟩
  · rw [← h.sum_efferent, ← Graph.sum_statements_eq_sum_efferent, ← total_eq_sum, Graph.length_ids]
    exact Average.mean_eq_div _ _
  · rw [← h.forall_afferent_eq_zero_iff]
    exact hattains.eq_none_iff

end GraphBuilder.Counts

/-- The imports of a project with their modules, in the order of the modules and of the source. -/
def Project.imports (p : Project) : List (String × ImportEdge) :=
  p.modules.entries.flatMap fun (id, facts) => facts.edges.map fun e => (id, e)

/-- A relative import that leads to a module of the project. -/
def ImportEdge.IsCounted (e : ImportEdge) : Prop :=
  e.statement.isRelative = true ∧ ∃ module hops, e.resolution = .internal module hops

theorem ImportEdge.isCounted_iff {e : ImportEdge} :
    e.IsCounted ↔ (e.isRelative && e.isResolved) = true := by
  rw [IsCounted, Bool.and_eq_true, Project.isResolved_iff, target?]
  simp only [Resolution.target?_eq_some_iff]
  rfl

open Classical in
theorem relativeEdges_eq_filter (p : Project) :
    relativeEdges (p.modules.entries.map fun (id, facts) => (id, facts.edges))
      = p.imports.filter (·.2.IsCounted) := by
  rw [relativeEdges, Project.imports, List.flatMap_map, List.filter_flatMap]
  refine List.flatMap_congr fun entry _ => ?_
  rw [List.filter_map]
  refine congrArg (List.map _) (List.filter_congr fun e _ => ?_)
  rw [Bool.eq_iff_iff, Function.comp_apply, decide_eq_true_eq, ImportEdge.isCounted_iff]

theorem describes_complexitySummary (edges : List (String × List ImportEdge)) :
    (complexitySummary edges : ComplexitySummary ℚ).Describes (relativeEdges edges) := by
  set hops := (relativeEdges edges).map fun r => ((r.1, r.2.statement.source), r.2.hops) with hhops
  have hfirst := firstOfLargest_firstMax hops
  have hnone : (firstMax hops).2 = none ↔ ∀ id e, (id, e) ∈ relativeEdges edges → e.hops = 0 := by
    rw [hfirst.eq_none_iff, hhops, List.forall_mem_map]
    exact Prod.forall
  refine ⟨List.length_map _, ?_, fun id e he => ?_, fun hpos => ?_, ?_, ?_⟩
  · have hsum : total (hops.map (·.2)) = ((relativeEdges edges).map (·.2.hops)).sum := by
      rw [hhops, List.map_map, total_eq_sum]
      rfl
    rw [← hsum, ← List.length_map fun r => ((r.1, r.2.statement.source), r.2.hops)]
    exact Average.mean_eq_div _ _
  · exact hfirst.le _ (List.mem_map.mpr ⟨(id, e), he, rfl⟩)
  · obtain ⟨name, before, after, hlabel, hvalues, hbefore⟩ := hfirst.named hpos
    obtain ⟨front, rest, hsplit, rfl, hrest⟩ := List.map_eq_append_iff.mp hvalues
    obtain ⟨⟨id, e⟩, behind, rfl, hname, -⟩ := List.map_eq_cons_iff.mp hrest
    obtain ⟨rfl, hmax⟩ := Prod.mk.inj hname
    refine ⟨front, id, e, behind, hsplit, hmax, fun other hother => ?_, ?_, ?_⟩
    · exact hbefore _ (List.mem_map_of_mem hother)
    · exact congrArg (Option.map Prod.snd) hlabel
    · exact congrArg (Option.map Prod.fst) hlabel
  · exact Option.map_eq_none_iff.trans hnone
  · exact Option.map_eq_none_iff.trans hnone

open Classical in
/-- In whatever way a graph was built, its summaries are about the added modules and the accepted
statements: the depths of the modules, the different modules to which each of them leads, and the
statements that lead to each of them. A maximum is named by the least module that has it. Of any
project, the relative imports that lead to a module are summarised, as often as they stand there, and
a maximum is named by the first of them. -/
theorem Graph.summaries_ofCalls (calls : List GraphBuilder.Call) (p : Project) :
    let g := ofCalls calls
    let statements := GraphBuilder.accepted {} calls
    (g.ids.Nodup ∧ ∀ id, id ∈ g.ids ↔ id ∈ GraphBuilder.added calls) ∧
    (g.depthSummary : DepthSummary ℚ).Describes g.ids ∧
    (g.fanoutSummary : FanoutSummary ℚ).Describes g.ids statements ∧
    (g.couplingSummary : CouplingSummary ℚ).Describes g.ids statements ∧
    (complexitySummary (p.modules.entries.map fun (id, facts) => (id, facts.edges)) :
      ComplexitySummary ℚ).Describes (p.imports.filter (·.2.IsCounted)) := by
  intro g statements
  have hcounts : (GraphBuilder.run calls).Counts statements := GraphBuilder.counts_run calls
  have hnames : ∀ id, id ∈ g.ids ↔ id ∈ GraphBuilder.added calls :=
    fun id => GraphBuilder.mem_ids_build.trans GraphBuilder.mem_nodes_run
  have hindexes : g.Indexes (GraphBuilder.added calls) :=
    indexes_of_id_eq (fun id m hm => (GraphBuilder.labelled_run calls).id_eq hm) hnames
  refine ⟨⟨g.ids_nodup, hnames⟩, describes_depthSummary hindexes.map_id,
    hcounts.describes_fanoutSummary, hcounts.describes_couplingSummary, ?_⟩
  rw [← relativeEdges_eq_filter]
  exact describes_complexitySummary _

end ModuleAtlas
