import Mathlib.Algebra.Order.Group.Nat
import Mathlib.Data.Finset.Max
import ModuleAtlas.Proofs.Graph.Builder
import ModuleAtlas.Proofs.Graph.Listing
import ModuleAtlas.Proofs.Text.Bytes

/-!
# Cycles are components

The modules that share a cycle with a module are its component. A module is a leader if it is the
least of its component, and the cycles of a graph are the listings of the components of its leaders
in ascending order (`cycles_eq_map_leaders`). All that is said about cycles follows from that form,
which no longer mentions the modules covered so far.
-/

namespace ModuleAtlas.Graph

open Relation (ReflTransGen TransGen)
open Std (TreeSet)

variable {g : Graph} {id first : String} {members : List String}

/-! ## Components -/

/-- The component of a module are the modules that share a cycle with it. -/
theorem mem_component (hg : g.Closed) {a b : String} : b ∈ g.component a ↔ g.Mutual a b := by
  have hmarked : ∀ c d, (g.downstream c).marked.contains d = true ↔ g.Reaches c d :=
    fun c d => TreeSet.contains_iff_mem.trans (mem_marked_downstream hg)
  simp only [component]
  by_cases ha : g.Reaches a a
  · rw [if_pos ((hmarked a a).mpr ha), List.mem_filter, mem_visits_downstream hg, hmarked]
    rfl
  · rw [if_neg (mt (hmarked a a).mp ha)]
    exact ⟨fun h => absurd h List.not_mem_nil, fun h => absurd h.refl_left.1 ha⟩

theorem component_eq_nil_iff (hg : g.Closed) : g.component id = [] ↔ ¬ g.Reaches id id := by
  rw [List.eq_nil_iff_forall_not_mem]
  simp only [mem_component hg]
  exact ⟨fun h hself => h id ⟨hself, hself⟩, fun h other hmut => h hmut.refl_left.1⟩

/-! ## The listing of a component -/

theorem mem_dependenciesWithin {a b : String} :
    b ∈ g.dependenciesWithin (TreeSet.ofList members) a ↔ g.Edge a b ∧ b ∈ members := by
  rw [dependenciesWithin, List.mem_filter, TreeSet.contains_ofList, List.contains_iff_mem]
  rfl

/-- One unit for each edge of the graph suffices for the edges inside a set of modules. -/
theorem edgesLeft_le_edgeCount (members : TreeSet String) :
    edgesLeft (g.dependenciesWithin members) g.ids ∅ ≤ g.edgeCount := by
  have hall : g.ids.filter (· ∉ (∅ : TreeSet String)) = g.ids :=
    List.filter_eq_self.mpr fun _ _ => by simp
  rw [edgesLeft, hall]
  refine List.sum_le_sum fun id _ => ?_
  rw [fanout, ← @List.length_map _ _ (g.targets id) (·.1)]
  exact List.length_filter_le _ _

theorem explores_cycleFrom (hg : g.Closed) (hfirst : first ∈ g.ids) (members : List String) :
    Explores (g.dependenciesWithin (TreeSet.ofList members)) [first] ∅
      (g.cycleFrom first members).modules := by
  have hnext : ∀ x ∈ g.ids, ∀ y ∈ g.dependenciesWithin (TreeSet.ofList members) x, y ∈ g.ids :=
    fun x hx y hy => hg.dependencies x hx y (mem_dependenciesWithin.mp hy).1
  rw [← Walk.setOf_mem_empty]
  refine explores_listing g.ids_nodup hnext (List.forall_mem_singleton.mpr hfirst) ?_
  rw [List.length_singleton, Nat.add_comm]
  exact Nat.add_le_add_right (edgesLeft_le_edgeCount _) 1

/-- A listing begins with its start. -/
theorem head?_cycleFrom : (g.cycleFrom first members).modules.head? = some first := by
  simp [cycleFrom, listing]

/-- The way from a module to another one on a common cycle stays on that cycle. -/
theorem reaches_within_of_mutual (hmembers : ∀ x, x ∈ members ↔ g.Mutual first x) {x : String}
    (hmut : g.Mutual first x) :
    ReflTransGen (Leads (g.dependenciesWithin (TreeSet.ofList members))) first x := by
  obtain ⟨hto, hback⟩ := hmut
  have hstep : ∀ {a b : String}, g.Edge a b → g.Mutual first b →
      Leads (g.dependenciesWithin (TreeSet.ofList members)) a b :=
    fun hedge hb => mem_dependenciesWithin.mpr ⟨hedge, (hmembers _).mpr hb⟩
  induction hto with
  | single hedge => exact .single (hstep hedge ⟨.single hedge, hback⟩)
  | tail hpath hedge ih =>
    exact (ih (hback.head hedge)).tail (hstep hedge ⟨hpath.tail hedge, hback⟩)

/-- The cycle of a component lists exactly the component. -/
theorem mem_cycleFrom (hg : g.Closed) (hself : g.Reaches first first)
    (hmembers : ∀ x, x ∈ members ↔ g.Mutual first x) {x : String} :
    x ∈ (g.cycleFrom first members).modules ↔ g.Mutual first x := by
  rw [(explores_cycleFrom hg (hg.mem_left hself) members).mem_iff]
  simp only [List.mem_singleton, exists_eq_left]
  refine ⟨fun hpath => ?_, reaches_within_of_mutual hmembers⟩
  induction hpath with
  | refl => exact mutual_self_iff.mpr hself
  | tail _ hstep _ => exact (hmembers _).mp (mem_dependenciesWithin.mp hstep).2

/-! ## Leaders -/

/-- A leader is on a cycle, and no module that shares a cycle with it is less. -/
def Leader (g : Graph) (id : String) : Prop :=
  g.Reaches id id ∧ ∀ other, g.Mutual id other → id ≤ other

/-- The cycle of a module, listed from the module on. -/
def cycleAt (g : Graph) (id : String) : Cycle := g.cycleFrom id (g.component id)

/-- What is covered when the modules of `rest` are still to come: of those exactly the ones that
share a cycle with a module that is not to come. -/
def Covers (g : Graph) (rest : List String) (covered : TreeSet String) : Prop :=
  ∀ x ∈ rest, x ∈ covered ↔ ∃ other, g.Mutual x other ∧ other ∉ rest

variable {rest : List String} {covered : TreeSet String}

/-- A module that is covered adds nothing to what is covered. -/
theorem Covers.skip (hcov : g.Covers (id :: rest) covered) (hid : id ∈ covered) :
    g.Covers rest covered := by
  obtain ⟨earlier, hearlier, hnot⟩ := (hcov id List.mem_cons_self).mp hid
  intro x hx
  rw [hcov x (List.mem_cons_of_mem id hx)]
  constructor
  · rintro ⟨other, hmut, hother⟩
    exact ⟨other, hmut, fun h => hother (List.mem_cons_of_mem id h)⟩
  · rintro ⟨other, hmut, hother⟩
    by_cases heq : other = id
    · exact ⟨earlier, (heq ▸ hmut).trans hearlier, hnot⟩
    · exact ⟨other, hmut, fun h => (List.mem_cons.mp h).elim heq hother⟩

/-- After a module that is not covered, its component is covered too. -/
theorem Covers.insert (hg : g.Closed) (hcov : g.Covers (id :: rest) covered) (hnew : id ∉ rest) :
    g.Covers rest (covered.insertMany (g.component id)) := by
  intro x hx
  rw [TreeSet.mem_insertMany_list, List.contains_iff_mem, mem_component hg,
    hcov x (List.mem_cons_of_mem id hx)]
  constructor
  · rintro (⟨other, hmut, hother⟩ | hmut)
    · exact ⟨other, hmut, fun h => hother (List.mem_cons_of_mem id h)⟩
    · exact ⟨id, hmut.symm, hnew⟩
  · rintro ⟨other, hmut, hother⟩
    by_cases heq : other = id
    · exact Or.inr (heq ▸ hmut).symm
    · exact Or.inl ⟨other, hmut, fun h => (List.mem_cons.mp h).elim heq hother⟩

/-- A module leads its component exactly if it is on a cycle and not covered. -/
theorem leader_iff_of_covers (hg : g.Closed) (hsuffix : id :: rest <:+ g.ids)
    (hcov : g.Covers (id :: rest) covered) :
    g.Leader id ↔ id ∉ covered ∧ g.Reaches id id := by
  obtain ⟨earlier, hids⟩ := hsuffix
  have hsorted := g.ids_pairwise
  rw [← hids] at hsorted
  obtain ⟨-, hlater, hbefore⟩ := List.pairwise_append.mp hsorted
  rw [hcov id List.mem_cons_self, Leader, and_comm]
  refine and_congr_left fun hself => ?_
  constructor
  · rintro hleast ⟨other, hmut, hother⟩
    have hmem : other ∈ earlier := by
      have := hg.mem_right hmut.1
      rw [← hids] at this
      exact (List.mem_append.mp this).resolve_right hother
    exact hleast other hmut (hbefore other hmem id List.mem_cons_self)
  · intro hnone other hmut
    have hmem : other ∈ id :: rest := by
      by_contra hother
      exact hnone ⟨other, hmut, hother⟩
    rcases List.mem_cons.mp hmem with rfl | hmem
    · exact le_refl _
    · exact ((List.pairwise_cons.mp hlater).1 other hmem).le

open Classical in
theorem cyclesThrough_eq (hg : g.Closed) {ids : List String} (hsuffix : ids <:+ g.ids)
    (hcov : g.Covers ids covered) :
    g.cyclesThrough ids covered = (ids.filter g.Leader).map g.cycleAt := by
  induction ids generalizing covered with
  | nil => rfl
  | cons id rest ih =>
    have hrest : rest <:+ g.ids := (List.suffix_cons id rest).trans hsuffix
    have hleader := leader_iff_of_covers hg hsuffix hcov
    have hnew : id ∉ rest := (List.nodup_cons.mp (g.ids_nodup.sublist hsuffix.sublist)).1
    simp only [cyclesThrough, TreeSet.contains_iff_mem]
    by_cases hid : id ∈ covered
    · rw [if_pos hid, ih hrest (hcov.skip hid), List.filter_cons_of_neg]
      simp [hleader, hid]
    · rw [if_neg hid]
      have hinsert := ih hrest (hcov.insert hg hnew)
      cases hcomp : g.component id with
      | nil =>
        have hself := (component_eq_nil_iff hg).mp hcomp
        rw [hcomp] at hinsert
        rw [List.filter_cons_of_neg (by simp [hleader, hself])]
        exact hinsert
      | cons member members =>
        have hself : g.Reaches id id := by
          by_contra hself
          rw [(component_eq_nil_iff hg).mpr hself] at hcomp
          cases hcomp
        rw [List.filter_cons_of_pos (by simp [hleader, hid, hself]), List.map_cons, ← hinsert,
          cycleAt, hcomp]

open Classical in
/-- The cycles of a graph are those of its leaders in ascending order. -/
theorem cycles_eq_map_leaders (hg : g.Closed) :
    g.cycles = (g.ids.filter g.Leader).map g.cycleAt := by
  refine cyclesThrough_eq hg List.suffix_rfl ?_
  intro x _
  refine ⟨fun h => absurd h TreeSet.not_mem_emptyc, ?_⟩
  rintro ⟨other, hmut, hother⟩
  exact absurd (hg.mem_right hmut.1) hother

theorem mem_cycles (hg : g.Closed) {c : Cycle} :
    c ∈ g.cycles ↔ ∃ first, g.Leader first ∧ g.cycleAt first = c := by
  classical
  rw [cycles_eq_map_leaders hg, List.mem_map]
  refine exists_congr fun first => and_congr_left fun _ => ?_
  rw [List.mem_filter, decide_eq_true_eq, and_iff_right_iff_imp]
  exact fun h => hg.mem_left h.1

/-- The cycle of a leader lists the modules that share a cycle with it. -/
theorem Leader.mem_cycleAt (hg : g.Closed) (h : g.Leader first) {x : String} :
    x ∈ (g.cycleAt first).modules ↔ g.Mutual first x :=
  mem_cycleFrom hg h.1 fun _ => mem_component hg

/-- The modules of one cycle reach each other. -/
theorem mutual_of_mem_cycles (hg : g.Closed) {c : Cycle} (hc : c ∈ g.cycles) {a b : String}
    (ha : a ∈ c.modules) (hb : b ∈ c.modules) : g.Mutual a b := by
  obtain ⟨first, hfirst, rfl⟩ := (mem_cycles hg).mp hc
  exact ((hfirst.mem_cycleAt hg).mp ha).symm.trans ((hfirst.mem_cycleAt hg).mp hb)

theorem mem_ids_of_mem_cycles (hg : g.Closed) {c : Cycle} (hc : c ∈ g.cycles) {a : String}
    (ha : a ∈ c.modules) : a ∈ g.ids :=
  hg.mem_left (mutual_of_mem_cycles hg hc ha ha).1

/-- Every module on a cycle has a leader. -/
theorem exists_leader (hg : g.Closed) (hself : g.Reaches id id) :
    ∃ first, g.Leader first ∧ g.Mutual first id := by
  have hnonempty : (g.component id).toFinset.Nonempty :=
    ⟨id, List.mem_toFinset.mpr ((mem_component hg).mpr ⟨hself, hself⟩)⟩
  obtain ⟨first, hfirst, hleast⟩ := Finset.exists_min_image _ (fun x => x) hnonempty
  have hmut : g.Mutual id first := (mem_component hg).mp (List.mem_toFinset.mp hfirst)
  refine ⟨first, ⟨hmut.symm.refl_left.1, fun other hother => ?_⟩, hmut.symm⟩
  exact hleast other (List.mem_toFinset.mpr ((mem_component hg).mpr (hmut.trans hother)))

/-- A component has one leader. -/
theorem Leader.eq (h : g.Leader id) (h' : g.Leader first) (hmut : g.Mutual id first) : id = first :=
  le_antisymm (h.2 first hmut) (h'.2 id hmut.symm)

/-! ## The cycles of a graph -/

/-- The cycles are the components with an edge inside them, each listed from its least module on, in
ascending order. -/
structure ListsComponents (g : Graph) (cycles : List Cycle) : Prop where
  /-- a module is on a cycle exactly if it reaches itself -/
  mem_iff : ∀ a, (∃ c ∈ cycles, a ∈ c.modules) ↔ g.Reaches a a
  /-- two modules are on one cycle exactly if they reach each other -/
  together_iff : ∀ a b, a ≠ b →
    ((∃ c ∈ cycles, a ∈ c.modules ∧ b ∈ c.modules) ↔ g.Reaches a b ∧ g.Reaches b a)
  nodup : ∀ c ∈ cycles, c.modules.Nodup
  disjoint : cycles.Pairwise fun c d => c.modules.Disjoint d.modules
  /-- the first module of a cycle is the least by its bytes -/
  least : ∀ c ∈ cycles, ∃ first, c.modules.head? = some first ∧
    ∀ a ∈ c.modules, a ≠ first → Text.bytes first < Text.bytes a
  ascending : cycles.Pairwise fun c d => ∀ first first', c.modules.head? = some first →
    d.modules.head? = some first' → Text.bytes first < Text.bytes first'

theorem leaders_pairwise (hg : g.Closed) : g.cycles.Pairwise fun c d =>
    ∃ first first', g.Leader first ∧ g.Leader first' ∧ first < first' ∧
      g.cycleAt first = c ∧ g.cycleAt first' = d := by
  classical
  rw [cycles_eq_map_leaders hg, List.pairwise_map]
  refine (g.ids_pairwise.filter _).imp_of_mem fun {a b} ha hb hlt => ?_
  have hleader : ∀ {x}, x ∈ g.ids.filter g.Leader → g.Leader x :=
    fun hx => of_decide_eq_true (List.mem_filter.mp hx).2
  exact ⟨a, b, hleader ha, hleader hb, hlt, rfl, rfl⟩

theorem listsComponents_cycles (hg : g.Closed) : g.ListsComponents g.cycles where
  mem_iff := by
    intro a
    constructor
    · rintro ⟨c, hc, ha⟩
      exact (mutual_of_mem_cycles hg hc ha ha).1
    · intro hself
      obtain ⟨first, hfirst, hmut⟩ := exists_leader hg hself
      exact ⟨_, (mem_cycles hg).mpr ⟨first, hfirst, rfl⟩, (hfirst.mem_cycleAt hg).mpr hmut⟩
  together_iff := by
    intro a b _
    constructor
    · rintro ⟨c, hc, ha, hb⟩
      exact mutual_of_mem_cycles hg hc ha hb
    · intro hab
      obtain ⟨first, hfirst, hmut⟩ := exists_leader hg (Mutual.refl_left hab).1
      exact ⟨_, (mem_cycles hg).mpr ⟨first, hfirst, rfl⟩, (hfirst.mem_cycleAt hg).mpr hmut,
        (hfirst.mem_cycleAt hg).mpr (hmut.trans hab)⟩
  nodup := by
    intro c hc
    obtain ⟨first, hfirst, rfl⟩ := (mem_cycles hg).mp hc
    exact (explores_cycleFrom hg (hg.mem_left hfirst.1) _).nodup
  disjoint := by
    refine (leaders_pairwise hg).imp ?_
    rintro c d ⟨first, first', hfirst, hfirst', hlt, rfl, rfl⟩ x hx hx'
    have hmut := ((hfirst.mem_cycleAt hg).mp hx).trans ((hfirst'.mem_cycleAt hg).mp hx').symm
    exact hlt.ne (hfirst.eq hfirst' hmut)
  least := by
    intro c hc
    obtain ⟨first, hfirst, rfl⟩ := (mem_cycles hg).mp hc
    refine ⟨first, head?_cycleFrom, fun a ha hne => ?_⟩
    have hle := hfirst.2 a ((hfirst.mem_cycleAt hg).mp ha)
    exact Text.bytes_lt_bytes_iff.mpr (lt_of_le_of_ne hle hne.symm)
  ascending := by
    refine (leaders_pairwise hg).imp ?_
    rintro c d ⟨first, first', -, -, hlt, rfl, rfl⟩ a a' ha ha'
    rw [cycleAt, head?_cycleFrom, Option.some.injEq] at ha ha'
    exact Text.bytes_lt_bytes_iff.mpr (ha ▸ ha' ▸ hlt)

/-- There is a cycle exactly if some module reaches itself. -/
theorem hasCycles_iff (hg : g.Closed) : g.hasCycles = true ↔ ∃ a, g.Reaches a a := by
  rw [hasCycles, Bool.not_eq_true', List.isEmpty_eq_false_iff_exists_mem]
  simp only [mem_cycles hg]
  constructor
  · rintro ⟨_, first, hfirst, -⟩
    exact ⟨first, hfirst.1⟩
  · rintro ⟨a, hself⟩
    obtain ⟨first, hfirst, -⟩ := exists_leader hg hself
    exact ⟨_, first, hfirst, rfl⟩

end ModuleAtlas.Graph
