import Mathlib.Data.List.Induction
import ModuleAtlas.Graph.Builder
import ModuleAtlas.Proofs.Graph.Edge

/-!
# Runs of a graph builder

A run is a sequence of calls on an empty builder, of which some may be refused. Whatever was called,
all targets of statements are known modules (`wired_run`), so that the graph is closed, and its
edges are the accepted imports (`Graph.edge_ofCalls`). A statement changes the node of its own
module only (`nodes_record`), which gains one statement and at most one target.
-/

namespace ModuleAtlas

open Std (TreeMap)

namespace NodeDraft

variable {node : NodeDraft} {target? : Option String} {t : String}

/-- Counts a statement, which leads to a module or out of the project. -/
def count (node : NodeDraft) : Option String → NodeDraft
  | some target => GraphBuilder.countStatement node target
  | none => GraphBuilder.countExternal node

theorem statements_count : (node.count target?).module.statements = node.module.statements + 1 := by
  cases target? <;> rfl

theorem externals_count : (node.count target?).module.externals
    = node.module.externals + if target? = none then 1 else 0 := by
  cases target? <;> rfl

theorem getElem?_targets_count : (node.count target?).targets[t]?
    = if target? = some t then some (node.targets[t]?.getD 0 + 1) else node.targets[t]? := by
  cases target? with
  | none => rfl
  | some target =>
    rw [count, GraphBuilder.countStatement, TreeMap.getElem?_alter]
    simp only [Std.compare_eq_iff_eq, Option.some.injEq]
    split
    · rename_i h
      rw [h]
    · rfl

theorem mem_targets_count :
    t ∈ (node.count target?).targets ↔ t ∈ node.targets ∨ target? = some t := by
  rw [← TreeMap.isSome_getElem?_iff_mem, getElem?_targets_count, ← TreeMap.isSome_getElem?_iff_mem]
  split <;> simp [*]

end NodeDraft

namespace GraphBuilder

variable {b : GraphBuilder} {id source target : String} {target? : Option String}

/-- A call on a builder. -/
inductive Call where
  | addModule (id : String) (language : Language)
  | addImport (source target : String)
  | addExternal (source : String)
  deriving DecidableEq, Repr

/-- The builder after a call, unless the call is refused. -/
def perform? (b : GraphBuilder) : Call → Option GraphBuilder
  | .addModule id language => some (b.addModule id language)
  | .addImport source target => b.addImport? source target
  | .addExternal source => b.addExternal? source

/-- The builder after a call. A refused call changes nothing. -/
def perform (b : GraphBuilder) (call : Call) : GraphBuilder := (b.perform? call).getD b

/-- The builder after some calls. -/
def run (calls : List Call) : GraphBuilder := calls.foldl perform {}

theorem mem_nodes_iff : id ∈ b.nodes ↔ ∃ node, b.nodes[id]? = some node := by
  rw [← TreeMap.isSome_getElem?_iff_mem, Option.isSome_iff_exists]

/-! ## One call -/

/-- Counts a statement of a module. -/
def record (b : GraphBuilder) (source : String) (target? : Option String) : GraphBuilder :=
  ⟨b.nodes.alter source fun node => node.map (·.count target?)⟩

/-- A statement is accepted if its module is known, and also the one it leads to. -/
def Accepts (b : GraphBuilder) (source : String) (target? : Option String) : Prop :=
  source ∈ b.nodes ∧ ∀ target, target? = some target → target ∈ b.nodes

theorem nodes_record (b : GraphBuilder) (source : String) (target? : Option String) (id : String) :
    (b.record source target?).nodes[id]?
      = if id = source then b.nodes[id]?.map (·.count target?) else b.nodes[id]? := by
  rw [record, TreeMap.getElem?_alter]
  simp only [Std.compare_eq_iff_eq, @eq_comm _ id source]
  split
  · rename_i h
    rw [h]
  · rfl

/-- A statement adds no module. -/
theorem mem_nodes_record : id ∈ (b.record source target?).nodes ↔ id ∈ b.nodes := by
  rw [mem_nodes_iff, mem_nodes_iff, nodes_record]
  split <;> simp

theorem accepts_record {other : String} {other? : Option String} :
    (b.record source target?).Accepts other other? ↔ b.Accepts other other? := by
  simp only [Accepts, mem_nodes_record]

theorem perform?_addImport (h : b.Accepts source (some target)) :
    b.perform? (.addImport source target) = some (b.record source (some target)) := by
  rw [perform?, addImport?, if_pos]
  · rfl
  · rw [knows, knows, TreeMap.contains_iff_mem.mpr h.1, TreeMap.contains_iff_mem.mpr (h.2 _ rfl)]
    rfl

theorem perform?_addExternal (h : b.Accepts source none) :
    b.perform? (.addExternal source) = some (b.record source none) := by
  rw [perform?, addExternal?, knows, if_pos (TreeMap.contains_iff_mem.mpr h.1)]
  rfl

/-- All that a call can do: it adds a module, records an accepted statement, or is refused. -/
theorem perform_cases (b : GraphBuilder) (call : Call) :
    (∃ id language, call = .addModule id language ∧ b.perform call = b.addModule id language) ∨
    (∃ source target, call = .addImport source target ∧ b.Accepts source (some target) ∧
      b.perform call = b.record source (some target)) ∨
    (∃ source, call = .addExternal source ∧ b.Accepts source none ∧
      b.perform call = b.record source none) ∨
    (b.perform? call = none ∧ b.perform call = b) := by
  cases call with
  | addModule id language => exact Or.inl ⟨id, language, rfl, rfl⟩
  | addImport source target =>
    by_cases h : b.Accepts source (some target)
    · refine Or.inr (Or.inl ⟨source, target, rfl, h, ?_⟩)
      rw [perform, perform?_addImport h, Option.getD_some]
    · have hnone : b.perform? (.addImport source target) = none := by
        rw [perform?, addImport?, if_neg]
        rw [Bool.and_eq_true, knows, knows, TreeMap.contains_iff_mem, TreeMap.contains_iff_mem]
        exact fun hboth => h ⟨hboth.1, fun _ ht => Option.some.inj ht ▸ hboth.2⟩
      exact Or.inr (Or.inr (Or.inr ⟨hnone, by rw [perform, hnone, Option.getD_none]⟩))
  | addExternal source =>
    by_cases h : b.Accepts source none
    · refine Or.inr (Or.inr (Or.inl ⟨source, rfl, h, ?_⟩))
      rw [perform, perform?_addExternal h, Option.getD_some]
    · have hnone : b.perform? (.addExternal source) = none := by
        rw [perform?, addExternal?, if_neg]
        rw [knows, TreeMap.contains_iff_mem]
        exact fun hs => h ⟨hs, fun _ ht => nomatch ht⟩
      exact Or.inr (Or.inr (Or.inr ⟨hnone, by rw [perform, hnone, Option.getD_none]⟩))

theorem nodes_addModule (b : GraphBuilder) (id : String) (language : Language) (other : String) :
    (b.addModule id language).nodes[other]?
      = if other = id ∧ id ∉ b.nodes then some { module := { id := id, language := language } }
        else b.nodes[other]? := by
  rw [addModule, TreeMap.getElem?_insertIfNew]
  simp only [Std.compare_eq_iff_eq, @eq_comm _ id other]

theorem mem_nodes_addModule {language : Language} {other : String} :
    other ∈ (b.addModule id language).nodes ↔ other = id ∨ other ∈ b.nodes := by
  rw [addModule, TreeMap.mem_insertIfNew, Std.compare_eq_iff_eq, @eq_comm _ id other]

/-- The known modules are those that were added. -/
theorem mem_nodes_perform {call : Call} :
    id ∈ (b.perform call).nodes ↔ id ∈ b.nodes ∨ ∃ language, call = .addModule id language := by
  rcases b.perform_cases call with
    ⟨added, language, rfl, hb⟩ | ⟨s, t, rfl, -, hb⟩ | ⟨s, rfl, -, hb⟩ | ⟨hnone, hb⟩
  · rw [hb, mem_nodes_addModule, or_comm]
    refine or_congr_right ⟨?_, ?_⟩
    · rintro rfl
      exact ⟨language, rfl⟩
    · rintro ⟨_, heq⟩
      cases heq
      rfl
  · simp [hb, mem_nodes_record]
  · simp [hb, mem_nodes_record]
  · rw [hb, or_iff_left]
    rintro ⟨_, rfl⟩
    cases hnone

theorem mem_nodes_foldl (b : GraphBuilder) (calls : List Call) :
    id ∈ (calls.foldl GraphBuilder.perform b).nodes ↔
      id ∈ b.nodes ∨ ∃ language, .addModule id language ∈ calls := by
  induction calls generalizing b with
  | nil => simp
  | cons call calls ih =>
    rw [List.foldl_cons, ih, mem_nodes_perform, or_assoc, ← exists_or]
    simp only [List.mem_cons, @eq_comm _ call]

/-! ## The graph that is built -/

theorem find?_build (b : GraphBuilder) (id : String) :
    b.build.nodes.find? id = b.nodes[id]?.map fun node => ⟨node.module, node.targets.toList⟩ := by
  rw [build, Keyed.find?_map, Keyed.find?_ofMap]

theorem mem_ids_build : id ∈ b.build.ids ↔ id ∈ b.nodes := by
  rw [Graph.ids, Keyed.mem_keys_iff, mem_nodes_iff, find?_build]
  simp

theorem edge_build_iff :
    b.build.Edge source target ↔ ∃ node, b.nodes[source]? = some node ∧ target ∈ node.targets := by
  rw [Graph.Edge, Graph.dependencies, Graph.targets, find?_build]
  cases b.nodes[source]? with
  | none => simp
  | some node => simp [TreeMap.map_fst_toList_eq_keys, TreeMap.mem_keys]

/-- The edges out of a module are in strictly ascending order, one for each target. -/
theorem dependencies_build_pairwise (b : GraphBuilder) (id : String) :
    (b.build.dependencies id).Pairwise (· < ·) := by
  rw [Graph.dependencies, Graph.targets, find?_build]
  cases b.nodes[id]? with
  | none => exact .nil
  | some node =>
    refine List.pairwise_map.mpr (TreeMap.ordered_keys_toList.imp fun h => ?_)
    exact compareOfLessAndEq_eq_lt.mp h

/-! ## All runs -/

/-- The targets of all statements are known. -/
def Wired (b : GraphBuilder) : Prop :=
  ∀ (id : String) (node : NodeDraft), b.nodes[id]? = some node → ∀ t ∈ node.targets, t ∈ b.nodes

theorem Wired.addModule (h : b.Wired) (id : String) (language : Language) :
    (b.addModule id language).Wired := by
  intro other node hnode t ht
  rw [mem_nodes_addModule]
  rw [nodes_addModule] at hnode
  split at hnode
  · cases hnode
    exact absurd ht TreeMap.not_mem_emptyc
  · exact Or.inr (h other node hnode t ht)

theorem Wired.record (h : b.Wired) (haccepts : b.Accepts source target?) :
    (b.record source target?).Wired := by
  intro other node hnode t ht
  rw [mem_nodes_record]
  rw [nodes_record] at hnode
  split at hnode
  · obtain ⟨old, hold, rfl⟩ := Option.map_eq_some_iff.mp hnode
    rcases NodeDraft.mem_targets_count.mp ht with ht | ht
    · exact h other old hold t ht
    · exact haccepts.2 t ht
  · exact h other node hnode t ht

theorem Wired.perform (h : b.Wired) (call : Call) : (b.perform call).Wired := by
  rcases b.perform_cases call with ⟨_, _, -, hb⟩ | ⟨_, _, -, ha, hb⟩ | ⟨_, -, ha, hb⟩ | ⟨-, hb⟩ <;>
    rw [hb]
  · exact h.addModule _ _
  · exact h.record ha
  · exact h.record ha
  · exact h

/-- Calls one after the other keep all targets known. -/
theorem Wired.foldl (h : b.Wired) (calls : List Call) :
    (calls.foldl GraphBuilder.perform b).Wired := by
  induction calls generalizing b with
  | nil => exact h
  | cons call calls ih => exact ih (h.perform call)

theorem wired_empty : ({} : GraphBuilder).Wired := by
  intro id node hnode
  cases hnode.symm.trans TreeMap.getElem?_emptyc

theorem wired_run (calls : List Call) : (run calls).Wired := wired_empty.foldl calls

/-- Where all targets are known, no edge leads out of the graph. -/
theorem Wired.closed_build (h : b.Wired) : b.build.Closed := by
  intro source target hedge
  obtain ⟨node, hnode, htarget⟩ := edge_build_iff.mp hedge
  rw [mem_ids_build, mem_ids_build]
  exact ⟨mem_nodes_iff.mpr ⟨node, hnode⟩, h source node hnode target htarget⟩

theorem edge_build_addModule {language : Language} :
    (b.addModule id language).build.Edge source target ↔ b.build.Edge source target := by
  simp only [edge_build_iff, nodes_addModule]
  split
  · rename_i h
    -- the new node has no targets, and there was none before
    rw [h.1, TreeMap.getElem?_eq_none h.2]
    simp
  · rfl

theorem edge_build_record {recorded : String} :
    (b.record recorded target?).build.Edge source target ↔ b.build.Edge source target ∨
      source = recorded ∧ target? = some target ∧ source ∈ b.nodes := by
  simp only [edge_build_iff, nodes_record]
  split
  · rename_i h
    subst h
    cases hnode : b.nodes[source]? with
    | none => simp [mem_nodes_iff, hnode]
    | some node => simp [NodeDraft.mem_targets_count, mem_nodes_iff, hnode]
  · rename_i h
    simp [h]

/-- A call adds no edge but the import it records. -/
theorem edge_build_perform {call : Call} :
    (b.perform call).build.Edge source target ↔ b.build.Edge source target ∨
      call = .addImport source target ∧ b.Accepts source (some target) := by
  rcases b.perform_cases call with
    ⟨id, language, rfl, hb⟩ | ⟨s, t, rfl, ha, hb⟩ | ⟨s, rfl, ha, hb⟩ | ⟨hnone, hb⟩
  · simp [hb, edge_build_addModule]
  · rw [hb, edge_build_record, Call.addImport.injEq, Option.some.injEq]
    refine or_congr_right ⟨?_, ?_⟩
    · rintro ⟨rfl, rfl, -⟩
      exact ⟨⟨rfl, rfl⟩, ha⟩
    · rintro ⟨⟨rfl, rfl⟩, -⟩
      exact ⟨rfl, rfl, ha.1⟩
  · simp [hb, edge_build_record]
  · rw [hb, or_iff_left]
    rintro ⟨rfl, ha⟩
    rw [perform?_addImport ha] at hnone
    cases hnone

theorem run_concat (calls : List Call) (call : Call) :
    run (calls ++ [call]) = (run calls).perform call := by
  rw [run, List.foldl_concat]
  rfl

end GraphBuilder

namespace Graph

/-- The graph that some calls build. -/
def ofCalls (calls : List GraphBuilder.Call) : Graph := (GraphBuilder.run calls).build

/-- Every graph that is built is closed. -/
theorem closed_ofCalls (calls : List GraphBuilder.Call) : (ofCalls calls).Closed :=
  (GraphBuilder.wired_run calls).closed_build

/-- The edges are the imports that were accepted when they were called. -/
theorem edge_ofCalls {calls : List GraphBuilder.Call} {source target : String} :
    (ofCalls calls).Edge source target ↔ ∃ earlier later,
      calls = earlier ++ .addImport source target :: later ∧
        (GraphBuilder.run earlier).Accepts source (some target) := by
  simp only [ofCalls]
  induction calls using List.reverseRecOn with
  | nil => simp [GraphBuilder.run, GraphBuilder.edge_build_iff]
  | append_singleton calls call ih =>
    rw [GraphBuilder.run_concat, GraphBuilder.edge_build_perform, ih]
    constructor
    · rintro (⟨earlier, later, rfl, ha⟩ | ⟨rfl, ha⟩)
      · exact ⟨earlier, later ++ [call], by simp, ha⟩
      · exact ⟨calls, [], rfl, ha⟩
    · rintro ⟨earlier, later, hcalls, ha⟩
      rcases List.eq_nil_or_concat' later with rfl | ⟨later, last, rfl⟩
      · obtain ⟨rfl, hcall⟩ := List.append_inj' hcalls rfl
        exact Or.inr ⟨List.singleton_inj.mp hcall, ha⟩
      · rw [← List.cons_append, ← List.append_assoc] at hcalls
        exact Or.inl ⟨earlier, later, (List.append_inj' hcalls rfl).1, ha⟩

end Graph

end ModuleAtlas
