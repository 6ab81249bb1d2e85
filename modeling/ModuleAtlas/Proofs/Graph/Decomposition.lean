import Mathlib.Data.List.Nodup
import Mathlib.Data.List.Sort
import ModuleAtlas.Proofs.Graph.Cycle
import ModuleAtlas.Proofs.Text.Sorted

/-!
# Cycles from strongly connected components

The cycles of a graph can be read off its division into strongly connected components, by whichever
routine it was found and in whichever order it comes: parts without an edge inside are left out,
each other part is listed from its least module on, and the listings are sorted. The result is
always `Graph.cycles` (`cyclesOf_eq_cycles`).
-/

namespace ModuleAtlas

/-- Is the listing of one cycle not after that of another, module by module? -/
def Cycle.atMost (c d : Cycle) : Bool := !decide (d.modules < c.modules)

theorem Cycle.atMost_iff {c d : Cycle} : c.atMost d = true ↔ c.modules ≤ d.modules := by
  rw [atMost, Bool.not_eq_true', decide_eq_false_iff_not, not_lt]

namespace Graph

open Std (TreeSet)

variable {g : Graph} {part : List String} {parts : List (List String)} {first : String}

/-- A division of the modules into strongly connected components. Neither the order of the parts nor
that of their members is fixed. -/
structure Decomposes (g : Graph) (parts : List (List String)) : Prop where
  mem_iff : ∀ id, id ∈ parts.flatten ↔ id ∈ g.ids
  nodup : parts.flatten.Nodup
  nonempty : [] ∉ parts
  connected : ∀ part ∈ parts, ∀ a ∈ part, ∀ b, b ∈ part ↔ b = a ∨ g.Mutual a b

/-- A part makes a cycle, unless it is a single module that does not import itself. -/
def isCyclic (g : Graph) : List String → Bool
  | [single] => g.hasSelfLoop single
  | _ => true

/-- The cycle of a part, listed from its least module on. -/
def cycleOf (g : Graph) (part : List String) : Cycle :=
  match Text.sortedUnique part with
  | [] => ⟨[]⟩
  | first :: _ => g.cycleFrom first part

/-- The cycles of some parts, sorted by their listings. -/
def cyclesOf (g : Graph) (parts : List (List String)) : List Cycle :=
  ((parts.filter g.isCyclic).map g.cycleOf).mergeSort Cycle.atMost

/-! ## Parts with an edge inside -/

/-- A part makes a cycle exactly if its members reach themselves. -/
theorem isCyclic_iff (h : g.Decomposes parts) (hpart : part ∈ parts) :
    g.isCyclic part = true ↔ ∀ a ∈ part, g.Reaches a a := by
  match hmembers : part with
  | [] => exact absurd hpart h.nonempty
  | [single] =>
    rw [isCyclic, hasSelfLoop_iff, List.forall_mem_singleton]
    refine ⟨fun hedge => .single hedge, fun hself => ?_⟩
    -- the first step of a closed walk stays in the component, and so at the module
    obtain ⟨next, hedge, hback⟩ := Relation.TransGen.head'_iff.mp hself
    have hnext : next ∈ [single] := by
      rcases Relation.reflTransGen_iff_eq_or_transGen.mp hback with rfl | hback
      · exact List.mem_singleton_self _
      · exact (h.connected _ hpart single (List.mem_singleton_self _) next).mpr
          (Or.inr ⟨.single hedge, hback⟩)
    exact List.mem_singleton.mp hnext ▸ hedge
  | a :: b :: rest =>
    refine iff_of_true rfl fun c hc => ?_
    have hnodup : (a :: b :: rest).Nodup := (List.nodup_flatten.mp h.nodup).1 _ hpart
    have hne : a ≠ b := fun heq => (List.nodup_cons.mp hnodup).1 (heq ▸ List.mem_cons_self)
    -- two different members reach each other, and any third one reaches them
    have hmut : g.Mutual a b :=
      ((h.connected _ hpart a List.mem_cons_self b).mp (by simp)).resolve_left hne.symm
    rcases (h.connected _ hpart a List.mem_cons_self c).mp hc with rfl | hac
    · exact hmut.refl_left.1
    · exact hac.symm.refl_left.1

theorem Decomposes.mem_part_iff (h : g.Decomposes parts) (hpart : part ∈ parts) {a b : String}
    (ha : a ∈ part) (hself : g.Reaches a a) : b ∈ part ↔ g.Mutual a b := by
  rw [h.connected part hpart a ha, or_iff_right_iff_imp]
  rintro rfl
  exact mutual_self_iff.mpr hself

theorem cycleFrom_congr {others : List String} (h : ∀ x, x ∈ part ↔ x ∈ others) :
    g.cycleFrom first part = g.cycleFrom first others := by
  have hwithin : g.dependenciesWithin (TreeSet.ofList part)
      = g.dependenciesWithin (TreeSet.ofList others) := by
    funext id
    refine List.filter_congr fun x _ => ?_
    rw [TreeSet.contains_ofList, TreeSet.contains_ofList, Bool.eq_iff_iff, List.contains_iff_mem,
      List.contains_iff_mem, h]
  rw [cycleFrom, cycleFrom, hwithin]

/-- The cycle of a part is that of its leader, the least of its modules. -/
theorem exists_leader_cycleOf (hg : g.Closed) (h : g.Decomposes parts) (hpart : part ∈ parts)
    (hcyclic : g.isCyclic part = true) :
    ∃ first ∈ part, g.Leader first ∧ g.cycleOf part = g.cycleAt first := by
  have hself := (isCyclic_iff h hpart).mp hcyclic
  have hsorted := Text.sortedUnique_pairwise part
  have hmem : ∀ x, x ∈ Text.sortedUnique part ↔ x ∈ part := fun _ => Text.mem_sortedUnique
  rw [cycleOf]
  cases hcase : Text.sortedUnique part with
  | nil =>
    have hempty : part = [] := List.eq_nil_iff_forall_not_mem.mpr fun x hx => by
      rw [← hmem, hcase] at hx
      cases hx
    exact absurd (hempty ▸ hpart) h.nonempty
  | cons first rest =>
    rw [hcase] at hsorted hmem
    have hfirst : first ∈ part := (hmem first).mp List.mem_cons_self
    refine ⟨first, hfirst, ⟨hself first hfirst, fun other hmut => ?_⟩, ?_⟩
    · have hother := (hmem other).mpr ((h.mem_part_iff hpart hfirst (hself first hfirst)).mpr hmut)
      rcases List.mem_cons.mp hother with rfl | hother
      · exact le_refl _
      · exact (List.rel_of_pairwise_cons hsorted hother).le
    · refine cycleFrom_congr fun x => ?_
      rw [h.mem_part_iff hpart hfirst (hself first hfirst), mem_component hg]

/-! ## The cycles of all parts -/

theorem mem_map_cycleOf (hg : g.Closed) (h : g.Decomposes parts) {c : Cycle} :
    c ∈ (parts.filter g.isCyclic).map g.cycleOf ↔ c ∈ g.cycles := by
  rw [mem_cycles hg, List.mem_map]
  constructor
  · rintro ⟨part, hpart, rfl⟩
    obtain ⟨hpart, hcyclic⟩ := List.mem_filter.mp hpart
    obtain ⟨first, -, hleader, hcycle⟩ := exists_leader_cycleOf hg h hpart hcyclic
    exact ⟨first, hleader, hcycle.symm⟩
  · rintro ⟨first, hleader, rfl⟩
    -- the part in which the leader lies has it as its least module
    obtain ⟨part, hpart, hfirst⟩ :=
      List.mem_flatten.mp ((h.mem_iff first).mpr (hg.mem_left hleader.1))
    have hmut := fun {b} => h.mem_part_iff hpart (b := b) hfirst hleader.1
    have hcyclic : g.isCyclic part = true :=
      (isCyclic_iff h hpart).mpr fun a ha => (hmut.mp ha).symm.refl_left.1
    obtain ⟨first', hfirst', hleader', hcycle⟩ := exists_leader_cycleOf hg h hpart hcyclic
    obtain rfl := hleader.eq hleader' (hmut.mp hfirst')
    exact ⟨part, List.mem_filter.mpr ⟨hpart, hcyclic⟩, hcycle⟩

/-- Different parts make different cycles. -/
theorem nodup_map_cycleOf (hg : g.Closed) (h : g.Decomposes parts) :
    ((parts.filter g.isCyclic).map g.cycleOf).Nodup := by
  -- equal cycles begin with the same module, and no module is in two parts
  refine List.pairwise_map.mpr (((List.nodup_flatten.mp h.nodup).2.filter _).imp_of_mem ?_)
  intro part part' hpart hpart' hdisjoint heq
  obtain ⟨hpart, hcyclic⟩ := List.mem_filter.mp hpart
  obtain ⟨hpart', hcyclic'⟩ := List.mem_filter.mp hpart'
  obtain ⟨first, hfirst, -, hcycle⟩ := exists_leader_cycleOf hg h hpart hcyclic
  obtain ⟨first', hfirst', -, hcycle'⟩ := exists_leader_cycleOf hg h hpart' hcyclic'
  have hheads : first = first' := by
    have hmodules := congrArg (·.modules.head?) (hcycle.symm.trans (heq.trans hcycle'))
    simpa [cycleAt, head?_cycleFrom] using hmodules
  exact hdisjoint hfirst (hheads ▸ hfirst')

theorem nodup_cycles (hg : g.Closed) : g.cycles.Nodup := by
  refine (leaders_pairwise hg).imp ?_
  rintro c d ⟨first, first', -, -, hlt, rfl, rfl⟩ heq
  have hmodules := congrArg (·.modules.head?) heq
  simp only [cycleAt, head?_cycleFrom, Option.some.injEq] at hmodules
  exact hlt.ne hmodules

/-- The cycles of a graph are sorted by their listings. -/
theorem cycles_pairwise_atMost (hg : g.Closed) :
    g.cycles.Pairwise fun c d => Cycle.atMost c d = true := by
  refine (leaders_pairwise hg).imp ?_
  rintro c d ⟨first, first', -, -, hlt, rfl, rfl⟩
  have hhead : (g.cycleAt first).modules.head? = some first := head?_cycleFrom
  have hhead' : (g.cycleAt first').modules.head? = some first' := head?_cycleFrom
  obtain ⟨rest, hlist⟩ := List.head?_eq_some_iff.mp hhead
  obtain ⟨rest', hlist'⟩ := List.head?_eq_some_iff.mp hhead'
  rw [Cycle.atMost_iff, hlist, hlist']
  exact (List.cons_lt_cons_iff.mpr (Or.inl hlt)).le

/-- Whichever division into strongly connected components is used, it gives the cycles of the graph.
-/
theorem cyclesOf_eq_cycles (hg : g.Closed) (h : g.Decomposes parts) :
    g.cyclesOf parts = g.cycles := by
  have hperm : (g.cyclesOf parts).Perm g.cycles :=
    (List.mergeSort_perm _ _).trans
      ((List.perm_ext_iff_of_nodup (nodup_map_cycleOf hg h) (nodup_cycles hg)).mpr
        fun c => mem_map_cycleOf hg h)
  refine hperm.eq_of_pairwise ?_ ?_ (cycles_pairwise_atMost hg)
  · rintro ⟨a⟩ ⟨b⟩ - - hab hba
    exact congrArg Cycle.mk (le_antisymm (Cycle.atMost_iff.mp hab) (Cycle.atMost_iff.mp hba))
  · refine List.pairwise_mergeSort ?_ ?_ _
    · intro a b c hab hbc
      exact Cycle.atMost_iff.mpr ((Cycle.atMost_iff.mp hab).trans (Cycle.atMost_iff.mp hbc))
    · intro a b
      rw [Bool.or_eq_true, Cycle.atMost_iff, Cycle.atMost_iff]
      exact le_total _ _

/-! ## A division into components -/

/-- The strongly connected component of a module: its component, or the module alone. -/
def strongComponent (g : Graph) (id : String) : List String :=
  if g.component id = [] then [id] else g.component id

/-- No module that shares a cycle with the module is less. -/
def Representative (g : Graph) (id : String) : Prop := ∀ other, g.Mutual id other → id ≤ other

theorem mem_strongComponent (hg : g.Closed) {a b : String} :
    b ∈ g.strongComponent a ↔ b = a ∨ g.Mutual a b := by
  rw [strongComponent]
  split
  · rename_i hempty
    have hself := (component_eq_nil_iff hg).mp hempty
    rw [List.mem_singleton, or_iff_left fun h => hself h.refl_left.1]
  · rename_i hnonempty
    rw [component_eq_nil_iff hg, not_not] at hnonempty
    rw [mem_component hg, iff_comm, or_iff_right_iff_imp]
    rintro rfl
    exact mutual_self_iff.mpr hnonempty

theorem nodup_strongComponent (hg : g.Closed) (id : String) : (g.strongComponent id).Nodup := by
  rw [strongComponent]
  split
  · exact List.nodup_singleton id
  · rw [component]
    split
    · exact (walks_downstream hg id).explores.nodup.filter _
    · exact List.nodup_nil

/-- Modules of one component are in each other's. -/
theorem strongComponent_connected (hg : g.Closed) {id a b : String}
    (ha : a ∈ g.strongComponent id) : b ∈ g.strongComponent id ↔ b = a ∨ g.Mutual a b := by
  rw [mem_strongComponent hg] at ha ⊢
  rcases ha with rfl | ha
  · rfl
  · refine ⟨?_, ?_⟩
    · rintro (rfl | hb)
      · exact Or.inr ha.symm
      · exact Or.inr (ha.symm.trans hb)
    · rintro (rfl | hb)
      · exact Or.inr ha
      · exact Or.inr (ha.trans hb)

/-- Every graph has a division into strongly connected components. -/
theorem exists_decomposes (hg : g.Closed) : ∃ parts, g.Decomposes parts := by
  classical
  refine ⟨(g.ids.filter g.Representative).map g.strongComponent, ?_, ?_, ?_, ?_⟩
  · intro id
    simp only [List.mem_flatten, List.mem_map, List.mem_filter, decide_eq_true_eq,
      exists_exists_and_eq_and, mem_strongComponent hg]
    constructor
    · rintro ⟨first, ⟨hfirst, -⟩, rfl | hmut⟩
      · exact hfirst
      · exact hg.mem_right hmut.1
    · intro hid
      by_cases hself : g.Reaches id id
      · obtain ⟨first, hleader, hmut⟩ := exists_leader hg hself
        exact ⟨first, ⟨hg.mem_left hleader.1, hleader.2⟩, Or.inr hmut⟩
      · exact ⟨id, ⟨hid, fun other h => absurd h.refl_left.1 hself⟩, Or.inl rfl⟩
  · refine List.nodup_flatten.mpr ⟨?_, ?_⟩
    · intro part hpart
      obtain ⟨id, -, rfl⟩ := List.mem_map.mp hpart
      exact nodup_strongComponent hg id
    · refine List.pairwise_map.mpr ((g.ids_pairwise.filter _).imp_of_mem ?_)
      -- of two representatives with a module in common, the greater one would not be least
      intro a b ha hb hlt x hxa hxb
      have hleast : g.Representative b := of_decide_eq_true (List.mem_filter.mp hb).2
      refine hlt.not_ge (hleast a ?_)
      rcases (mem_strongComponent hg).mp hxa with rfl | hxa <;>
        rcases (mem_strongComponent hg).mp hxb with rfl | hxb
      · exact absurd rfl hlt.ne
      · exact hxb
      · exact hxa.symm
      · exact hxb.trans hxa.symm
  · intro hempty
    obtain ⟨id, -, hid⟩ := List.mem_map.mp hempty
    have hmem : id ∈ g.strongComponent id := (mem_strongComponent hg).mpr (Or.inl rfl)
    rw [hid] at hmem
    cases hmem
  · intro part hpart a ha b
    obtain ⟨id, -, rfl⟩ := List.mem_map.mp hpart
    exact strongComponent_connected hg ha

/-- In whatever way a graph was built, its cycles are its components with an edge inside them, and
there is one exactly if the edges close a walk. They are found from any division of the graph into
strongly connected components. -/
theorem cycles_ofCalls (calls : List GraphBuilder.Call) :
    let g := ofCalls calls
    g.ListsComponents g.cycles ∧ (g.hasCycles = true ↔ ∃ a, g.Reaches a a) ∧
      (∃ parts, g.Decomposes parts) ∧
      ∀ parts, g.Decomposes parts → g.cyclesOf parts = g.cycles := by
  have hg := closed_ofCalls calls
  exact ⟨listsComponents_cycles hg, hasCycles_iff hg, exists_decomposes hg,
    fun _ => cyclesOf_eq_cycles hg⟩

end Graph

end ModuleAtlas
