import Mathlib.Algebra.BigOperators.Group.Multiset.Basic
import ModuleAtlas.Proofs.Graph.Builder
import ModuleAtlas.Proofs.Grouping
import ModuleAtlas.Proofs.Keyed

/-!
# The counters of a graph

A graph does not keep its import statements, only their numbers. Whatever calls build it, the
counters of a module are those of its accepted statements (`GraphBuilder.counts_run`): so many
statements, so many of them out of the project, and so many to each target. No statement is lost or
counted twice, since those that lead out of the project and those that lead to a module make up all
statements (`GraphBuilder.Counts.externalCount_add_sum_afferent`).
-/

namespace ModuleAtlas

open Std (TreeMap)

/-- An import statement: the module in which it stands, and the one to which it leads, if any. -/
structure Statement where
  source : String
  target? : Option String
  deriving DecidableEq

/-- Where the statements of a module lead. -/
def Statement.leads (statements : List Statement) (id : String) : List (Option String) :=
  (statements.filter (·.source = id)).map (·.target?)

theorem Statement.leads_concat (statements : List Statement) (s : Statement) (id : String) :
    leads (statements ++ [s]) id
      = if id = s.source then leads statements id ++ [s.target?] else leads statements id := by
  rw [leads, List.filter_append, List.map_append, leads]
  split
  · rename_i h
    simp [h]
  · rename_i h
    simp [Ne.symm h]

/-- The number of statements of a module that lead out of the project. -/
def Graph.externals (g : Graph) (id : String) : Nat := ((g.module? id).map (·.externals)).getD 0

/-! ## One module -/

namespace NodeDraft

variable {node : NodeDraft} {leads : List (Option String)}

/-- The counters of a module are those of its statements. -/
structure Counts (node : NodeDraft) (leads : List (Option String)) : Prop where
  statements : node.module.statements = leads.length
  externals : node.module.externals = leads.count none
  targets : ∀ t, node.targets[t]? = if some t ∈ leads then some (leads.count (some t)) else none

theorem counts_new (id : String) (language : Language) :
    Counts { module := { id := id, language := language } } [] where
  statements := rfl
  externals := rfl
  targets := fun _ => TreeMap.getElem?_emptyc

/-- One more statement is counted once. -/
theorem Counts.count (h : node.Counts leads) (target? : Option String) :
    (node.count target?).Counts (leads ++ [target?]) where
  statements := by rw [statements_count, h.statements, List.length_append, List.length_singleton]
  externals := by
    rw [externals_count, h.externals, List.count_append, List.count_singleton]
    simp
  targets := by
    intro t
    rw [getElem?_targets_count, h.targets, List.count_append, List.count_singleton]
    by_cases ht : target? = some t
    · by_cases hmem : some t ∈ leads
      · simp [ht, hmem]
      · simp [ht, hmem, List.count_eq_zero_of_not_mem hmem]
    · simp [ht, Ne.symm ht]

theorem Counts.mem_targets (h : node.Counts leads) {t : String} :
    t ∈ node.targets ↔ some t ∈ leads := by
  rw [← TreeMap.isSome_getElem?_iff_mem, h.targets]
  split <;> simp [*]

end NodeDraft

namespace GraphBuilder

variable {b : GraphBuilder} {statements : List Statement} {id : String}

/-! ## All modules -/

/-- The counters of all modules are those of some statements, which name known modules only. -/
structure Counts (b : GraphBuilder) (statements : List Statement) : Prop where
  known : ∀ s ∈ statements, b.Accepts s.source s.target?
  counts : ∀ (id : String) (node : NodeDraft), b.nodes[id]? = some node →
    node.Counts (Statement.leads statements id)

theorem counts_empty : ({} : GraphBuilder).Counts [] where
  known := fun _ hs => nomatch hs
  counts := fun _ _ hnode => nomatch hnode.symm.trans TreeMap.getElem?_emptyc

theorem Counts.leads_eq_nil (h : b.Counts statements) (hid : b.nodes[id]? = none) :
    Statement.leads statements id = [] := by
  rw [Statement.leads, List.map_eq_nil_iff, List.filter_eq_nil_iff]
  intro s hs hsource
  obtain ⟨node, hnode⟩ := mem_nodes_iff.mp (of_decide_eq_true hsource ▸ (h.known s hs).1)
  rw [hid] at hnode
  cases hnode

theorem Counts.addModule (h : b.Counts statements) (id : String) (language : Language) :
    (b.addModule id language).Counts statements where
  known := by
    intro s hs
    obtain ⟨hsource, htarget⟩ := h.known s hs
    exact ⟨mem_nodes_addModule.mpr (Or.inr hsource),
      fun t ht => mem_nodes_addModule.mpr (Or.inr (htarget t ht))⟩
  counts := by
    intro other node hnode
    rw [nodes_addModule] at hnode
    split at hnode
    · -- no statement names a module that is not known yet
      rename_i hnew
      cases hnode
      rw [hnew.1, h.leads_eq_nil (TreeMap.getElem?_eq_none hnew.2)]
      exact NodeDraft.counts_new id language
    · exact h.counts other node hnode

theorem Counts.record (h : b.Counts statements) {source : String} {target? : Option String}
    (haccepts : b.Accepts source target?) :
    (b.record source target?).Counts (statements ++ [⟨source, target?⟩]) where
  known := by
    intro s hs
    rw [accepts_record]
    rcases List.mem_append.mp hs with hs | hs
    · exact h.known s hs
    · rwa [List.mem_singleton.mp hs]
  counts := by
    intro id node hnode
    rw [nodes_record] at hnode
    rw [Statement.leads_concat]
    split at hnode
    · rename_i hid
      obtain ⟨old, hold, rfl⟩ := Option.map_eq_some_iff.mp hnode
      rw [if_pos hid]
      exact (h.counts id old hold).count target?
    · rename_i hid
      rw [if_neg hid]
      exact h.counts id node hnode

/-- The statement that a call makes. -/
def Call.statement? : Call → Option Statement
  | .addModule _ _ => none
  | .addImport source target => some ⟨source, some target⟩
  | .addExternal source => some ⟨source, none⟩

/-- The statements that are accepted in some calls. -/
def accepted (b : GraphBuilder) : List Call → List Statement
  | [] => []
  | call :: calls =>
    (if (b.perform? call).isSome then call.statement?.toList else []) ++
      (b.perform call).accepted calls

/-- A call adds to the counters the statement it makes, if it is accepted. -/
theorem Counts.perform (h : b.Counts statements) (call : Call) :
    (b.perform call).Counts
      (statements ++ if (b.perform? call).isSome then call.statement?.toList else []) := by
  rcases b.perform_cases call with
    ⟨id, language, rfl, hb⟩ | ⟨source, target, rfl, ha, hb⟩ | ⟨source, rfl, ha, hb⟩ | ⟨hnone, hb⟩
  · rw [hb, perform?, Call.statement?]
    simpa using h.addModule id language
  · rw [hb, perform?_addImport ha]
    exact h.record ha
  · rw [hb, perform?_addExternal ha]
    exact h.record ha
  · rw [hb, hnone]
    simpa using h

theorem Counts.foldl (h : b.Counts statements) (calls : List Call) :
    (calls.foldl GraphBuilder.perform b).Counts (statements ++ b.accepted calls) := by
  induction calls generalizing b statements with
  | nil => simpa [accepted] using h
  | cons call calls ih =>
    rw [accepted, ← List.append_assoc]
    exact ih (h.perform call)

/-- Whatever is called, the counters are those of the accepted statements. -/
theorem counts_run (calls : List Call) : (run calls).Counts (accepted {} calls) :=
  counts_empty.foldl calls

/-! ## Calls that are not refused -/

/-- The builder knows the modules that a call names. -/
def Supports (b : GraphBuilder) (call : Call) : Prop :=
  ∀ s, call.statement? = some s → b.Accepts s.source s.target?

theorem perform?_eq_some {call : Call} (h : b.Supports call) :
    b.perform? call = some (b.perform call) := by
  cases call with
  | addModule id language => rfl
  | addImport source target => rw [perform, perform?_addImport (h _ rfl), Option.getD_some]
  | addExternal source => rw [perform, perform?_addExternal (h _ rfl), Option.getD_some]

/-- Modules that are known stay known. -/
theorem Supports.perform {call : Call} (h : b.Supports call) (other : Call) :
    (b.perform other).Supports call := by
  intro s hs
  obtain ⟨hsource, htarget⟩ := h s hs
  exact ⟨mem_nodes_perform.mpr (Or.inl hsource),
    fun t ht => mem_nodes_perform.mpr (Or.inl (htarget t ht))⟩

/-- Calls that name known modules are all accepted, one after the other. -/
theorem foldlM_perform? {calls : List Call} (h : ∀ call ∈ calls, b.Supports call) :
    calls.foldlM perform? b = some (calls.foldl GraphBuilder.perform b) := by
  induction calls generalizing b with
  | nil => rfl
  | cons call calls ih =>
    obtain ⟨hcall, hcalls⟩ := List.forall_mem_cons.mp h
    rw [List.foldlM_cons, perform?_eq_some hcall, List.foldl_cons]
    exact ih fun other hother => (hcalls other hother).perform call

theorem accepted_eq_filterMap {calls : List Call} (h : ∀ call ∈ calls, b.Supports call) :
    b.accepted calls = calls.filterMap Call.statement? := by
  induction calls generalizing b with
  | nil => rfl
  | cons call calls ih =>
    obtain ⟨hcall, hcalls⟩ := List.forall_mem_cons.mp h
    rw [accepted, perform?_eq_some hcall, ih fun other hother => (hcalls other hother).perform call,
      List.filterMap_cons]
    cases call.statement? <;> rfl

theorem accepted_append (b : GraphBuilder) (calls more : List Call) :
    b.accepted (calls ++ more)
      = b.accepted calls ++ (calls.foldl GraphBuilder.perform b).accepted more := by
  induction calls generalizing b with
  | nil => rfl
  | cons call calls ih =>
    rw [List.cons_append, accepted, accepted, ih, List.append_assoc, List.foldl_cons]

/-! ## The graph that is built -/

theorem Counts.efferent (h : b.Counts statements) (id : String) :
    b.build.efferent id = (Statement.leads statements id).length := by
  rw [Graph.efferent, Graph.module?, find?_build]
  cases hnode : b.nodes[id]? with
  | none => simp [h.leads_eq_nil hnode]
  | some node => simp [(h.counts id node hnode).statements]

theorem Counts.externals (h : b.Counts statements) (id : String) :
    b.build.externals id = (Statement.leads statements id).count none := by
  rw [Graph.externals, Graph.module?, find?_build]
  cases hnode : b.nodes[id]? with
  | none => simp [h.leads_eq_nil hnode]
  | some node => simp [(h.counts id node hnode).externals]

theorem Counts.statementsBetween (h : b.Counts statements) (source target : String) :
    b.build.statementsBetween source target
      = (Statement.leads statements source).count (some target) := by
  rw [Graph.statementsBetween, Graph.targets, find?_build]
  cases hnode : b.nodes[source]? with
  | none => simp [h.leads_eq_nil hnode]
  | some node =>
    simp only [Option.map_some, Option.getD_some, lookup_toList,
      (h.counts source node hnode).targets]
    split
    · rfl
    · rename_i hmem
      rw [List.count_eq_zero_of_not_mem hmem, Option.getD_none]

theorem Counts.edge_iff (h : b.Counts statements) {source target : String} :
    b.build.Edge source target ↔ some target ∈ Statement.leads statements source := by
  rw [edge_build_iff]
  cases hnode : b.nodes[source]? with
  | none => simp [h.leads_eq_nil hnode]
  | some node => simp [(h.counts source node hnode).mem_targets]

/-- A statement of the module `id` leads to a module of the graph, if it leads to any. -/
theorem Counts.mem_ids (h : b.Counts statements) {target : String}
    (htarget : some target ∈ Statement.leads statements id) : target ∈ b.build.ids := by
  obtain ⟨s, hs, hlead⟩ := List.mem_map.mp htarget
  exact mem_ids_build.mpr ((h.known s (List.mem_filter.mp hs).1).2 target hlead)

end GraphBuilder

/-! ## All statements together -/

namespace Graph

variable {g : Graph} {ids : List String} {leads : List (Option String)}

/-- Statements that lead to some modules or out of the project make up all statements. -/
theorem count_none_add_sum_count (hids : ids.Nodup) (hleads : ∀ t, some t ∈ leads → t ∈ ids) :
    leads.count none + (ids.map fun t => leads.count (some t)).sum = leads.length := by
  have hkeys : (none :: ids.map some).Nodup := by
    rw [List.nodup_cons]
    exact ⟨by simp, hids.map (Option.some_injective _)⟩
  have hcover : ∀ lead ∈ leads, lead ∈ none :: ids.map some := by
    intro lead hlead
    cases lead with
    | none => exact List.mem_cons_self
    | some t => exact List.mem_cons_of_mem _ (List.mem_map_of_mem (hleads t hlead))
  have hcount : ∀ k, (leads.filter (· = k)).countP (fun _ => true) = leads.count k := by
    intro k
    rw [List.countP_true, ← List.countP_eq_length_filter]
    exact List.countP_congr fun lead _ => by simp
  -- grouped by where they lead, all statements are counted
  have hgroups := sum_countP (fun lead => lead) hkeys hcover fun _ => true
  simp only [hcount, List.map_cons, List.sum_cons, List.map_map, List.countP_true] at hgroups
  exact hgroups

theorem map_externals_module? {id : String} (hid : id ∈ g.ids) :
    (g.module? id).map (·.externals) = some (g.externals id) := by
  obtain ⟨node, hnode⟩ := Keyed.mem_keys_iff.mp hid
  rw [externals, module?, hnode]
  rfl

theorem externalCount_eq_sum (g : Graph) : g.externalCount = (g.ids.map g.externals).sum := by
  rw [externalCount, total_eq_sum, modules, ids, Keyed.values, Keyed.keys, List.map_map,
    List.map_map, List.map_map]
  refine congrArg List.sum (List.map_congr_left fun entry hentry => ?_)
  have hnode : g.nodes.find? entry.1 = some entry.2 := Keyed.find?_eq_some_iff.mpr hentry
  simp only [Function.comp_apply, externals, module?, hnode, Option.map_some, Option.getD_some]

theorem sum_afferent (g : Graph) : (g.ids.map g.afferent).sum
    = (g.ids.map fun source => (g.ids.map (g.statementsBetween source)).sum).sum := by
  have hswap := Multiset.sum_map_sum_map (g.ids : Multiset String) (g.ids : Multiset String)
    (f := fun target source => g.statementsBetween source target)
  simp only [Multiset.map_coe, Multiset.sum_coe] at hswap
  exact hswap

end Graph

/-- The statements that lead out of the project and those that lead to a module make up all
statements. -/
theorem GraphBuilder.Counts.externalCount_add_sum_afferent {b : GraphBuilder}
    {statements : List Statement} (h : b.Counts statements) :
    b.build.externalCount + (b.build.ids.map b.build.afferent).sum
      = (b.build.ids.map b.build.efferent).sum := by
  rw [Graph.externalCount_eq_sum, Graph.sum_afferent, ← List.sum_map_add]
  refine congrArg List.sum (List.map_congr_left fun id _ => ?_)
  -- module by module: its external statements and those to each module are all of its statements
  have hbetween := funext (h.statementsBetween id)
  have hleads : ∀ t, some t ∈ Statement.leads statements id → t ∈ b.build.ids := fun _ => h.mem_ids
  rw [hbetween, h.externals, h.efferent]
  exact Graph.count_none_add_sum_count b.build.ids_nodup hleads

/-- In whatever way a graph was built, its statements either lead out of the project or to a module
of the graph. -/
theorem Graph.externalCount_add_sum_afferent (calls : List GraphBuilder.Call) :
    let g := ofCalls calls
    g.externalCount + (g.ids.map g.afferent).sum = (g.ids.map g.efferent).sum :=
  (GraphBuilder.counts_run calls).externalCount_add_sum_afferent

end ModuleAtlas
