import Mathlib.Data.List.Chain
import ModuleAtlas.Proofs.Graph.Cycle

/-!
# The order in which a cycle is listed

The modules of a cycle are listed in the depth-first preorder from the least of them, in which the
successors inside the cycle are visited in ascending order (`modules_eq_preorder`). So every module
but the first is imported by one that is listed before it, though not always by its neighbour. In a
simple cycle no module imports two others of the cycle, and then the one listed before it can only be
its neighbour: the closed listing is a path (`isChain_closed`).
-/

namespace ModuleAtlas

open Relation (ReflTransGen TransGen)
open Std (TreeSet)

/-! ## Lists in which every item but the first has a predecessor -/

section Chains

variable {R : String → String → Prop} {list front : List String} {last a b : String}

/-- In a chain without repetition, if no item leads to two others, the items before the last lead to
items after the first. -/
theorem mem_tail_of_chain (hchain : (front ++ [last]).IsChain R) (hnodup : (front ++ [last]).Nodup)
    (hunique : ∀ c ∈ front ++ [last], c ≠ a → R a c → c = b) (ha : a ∈ front) :
    b ∈ (front ++ [last]).tail := by
  obtain ⟨before, after, rfl⟩ := List.append_of_mem ha
  obtain ⟨c, later, hlater⟩ : ∃ c later, after ++ [last] = c :: later :=
    List.exists_cons_of_ne_nil (by simp)
  rw [List.append_assoc, List.cons_append, hlater] at hchain hnodup hunique ⊢
  have hnext : R a c := (List.isChain_append_cons_cons.mp hchain).2.1
  have hne : c ≠ a := by
    rintro rfl
    exact (List.nodup_cons.mp hnodup.of_append_right).1 List.mem_cons_self
  obtain rfl : c = b := hunique c (by simp) hne hnext
  cases before <;> simp

/-- If every item but the first has a predecessor before it and no item leads to two others, each
item leads to the next. -/
theorem isChain_of_earlier (hnodup : list.Nodup)
    (hearlier : ∀ before item after, list = before ++ item :: after → before ≠ [] →
      ∃ earlier ∈ before, R earlier item)
    (hunique : ∀ a ∈ list, ∀ b ∈ list, ∀ c ∈ list, b ≠ a → c ≠ a → R a b → R a c → c = b) :
    list.IsChain R := by
  suffices hfront : ∀ front, front <+: list → front.IsChain R from hfront list List.prefix_rfl
  intro front hprefix
  induction front using List.reverseRecOn with
  | nil => exact .nil
  | append_singleton front item ih =>
    have hchain := ih ((List.prefix_append front [item]).trans hprefix)
    obtain ⟨after, hlist⟩ := hprefix
    have hsub : ∀ x ∈ front, x ∈ list := by
      intro x hx
      rw [← hlist]
      simp [hx]
    have hitem : item ∈ list := by
      rw [← hlist]
      simp
    have hnew : item ∉ front := by
      rw [← hlist] at hnodup
      intro hmem
      exact (List.nodup_append'.mp hnodup.of_append_left).2.2 hmem List.mem_cons_self
    refine hchain.append (.singleton item) fun last hlast next hnext => ?_
    obtain rfl : next = item := by simpa using hnext.symm
    obtain ⟨others, rfl⟩ : ∃ others, front = others ++ [last] :=
      List.getLast?_eq_some_iff.mp hlast
    obtain ⟨earlier, hmem, hleads⟩ :=
      hearlier (others ++ [last]) next after (by rw [← hlist, List.append_assoc]; rfl) (by simp)
    rcases List.mem_append.mp hmem with hothers | hlast
    · -- an item before the last leads to an item of the front, and to no other one
      have hfront : (others ++ [last]).Nodup := by
        rw [← hlist, List.append_assoc] at hnodup
        exact hnodup.of_append_left
      have hne : next ≠ earlier := by
        rintro rfl
        exact hnew (List.mem_append_left _ hothers)
      have htail := mem_tail_of_chain (b := next) hchain hfront
        (fun c hc hca hac => hunique earlier (hsub _ hmem) next hitem c (hsub c hc) hne hca
          hleads hac) hothers
      exact absurd (List.mem_of_mem_tail htail) hnew
    · rw [List.mem_singleton.mp hlast] at hleads
      exact hleads

/-- A path to another end reaches it from outside. -/
theorem exists_last_step (hpath : TransGen R a b) (hne : a ≠ b) :
    ∃ c, ReflTransGen R a c ∧ c ≠ b ∧ R c b := by
  induction hpath using TransGen.head_induction_on with
  | single hstep => exact ⟨_, .refl, hne, hstep⟩
  | @head a c hstep hrest ih =>
    by_cases hc : c = b
    · exact ⟨a, .refl, hne, hc ▸ hstep⟩
    · obtain ⟨d, hto, hd, hlast⟩ := ih hc
      exact ⟨d, hto.head hstep, hd, hlast⟩

end Chains

/-! ## The listing of a cycle -/

namespace Cycle

/-- The modules of a cycle that a module imports, in ascending order. -/
def successors (c : Cycle) (g : Graph) (id : String) : List String :=
  (g.dependencies id).filter (· ∈ c.modules)

/-- No module of the cycle imports two others of it. In a cycle of several modules each of them
imports just one other, then. -/
def IsSimple (c : Cycle) (g : Graph) : Prop :=
  ∀ id ∈ c.modules, ∀ a ∈ c.modules, ∀ b ∈ c.modules, a ≠ id → b ≠ id →
    g.Edge id a → g.Edge id b → b = a

theorem mem_successors {c : Cycle} {g : Graph} {a b : String} :
    b ∈ c.successors g a ↔ g.Edge a b ∧ b ∈ c.modules := by
  rw [successors, List.mem_filter, decide_eq_true_eq]
  rfl

end Cycle

namespace Graph

variable {g : Graph} {c : Cycle} {first id : String}

theorem dependenciesWithin_component (hg : g.Closed) (hfirst : g.Leader first) :
    g.dependenciesWithin (TreeSet.ofList (g.component first)) = (g.cycleAt first).successors g := by
  funext id
  rw [dependenciesWithin, Cycle.successors]
  refine List.filter_congr fun x _ => ?_
  rw [Bool.eq_iff_iff, decide_eq_true_eq, TreeSet.contains_ofList, List.contains_iff_mem,
    mem_component hg, hfirst.mem_cycleAt hg]

/-- A cycle is listed in the depth-first preorder from its least module. -/
theorem modules_eq_preorder (hg : g.Closed) (hfirst : g.Leader first) :
    (g.cycleAt first).modules = preorder ((g.cycleAt first).successors g)
      (g.cycleAt first).modules.toFinset [first] := by
  have hid : first ∈ g.ids := hg.mem_left hfirst.1
  have hself : first ∈ (g.cycleAt first).modules :=
    (hfirst.mem_cycleAt hg).mpr (mutual_self_iff.mpr hfirst.1)
  have hnext : ∀ x ∈ g.ids, ∀ y ∈ (g.cycleAt first).successors g x, y ∈ g.ids :=
    fun x _ y hy => (hg (Cycle.mem_successors.mp hy).1).2
  have henough : [first].length + edgesLeft ((g.cycleAt first).successors g) g.ids ∅
      ≤ g.edgeCount + 1 := by
    rw [← dependenciesWithin_component hg hfirst, List.length_singleton, Nat.add_comm]
    exact Nat.add_le_add_right (edgesLeft_le_edgeCount _) 1
  have hwithin : ∀ x ∈ (g.cycleAt first).modules,
      x ∈ unlisted g.ids ∅ ↔ x ∈ (g.cycleAt first).modules.toFinset := by
    intro x hx
    have hmem : x ∈ g.ids := hg.mem_right ((hfirst.mem_cycleAt hg).mp hx).1
    exact iff_of_true (mem_unlisted.mpr ⟨hmem, TreeSet.not_mem_emptyc⟩) (List.mem_toFinset.mpr hx)
  calc (g.cycleAt first).modules
      = listing ((g.cycleAt first).successors g) (g.edgeCount + 1) [first] ∅ := by
        rw [← dependenciesWithin_component hg hfirst]
        rfl
    _ = preorder ((g.cycleAt first).successors g) (unlisted g.ids ∅) [first] :=
        listing_eq_preorder g.ids_nodup hnext (List.forall_mem_singleton.mpr hid) henough
    _ = preorder ((g.cycleAt first).successors g) (g.cycleAt first).modules.toFinset [first] :=
        -- the search does not leave the cycle
        preorder_congr (List.forall_mem_singleton.mpr hself)
          (fun x _ y hy => (Cycle.mem_successors.mp hy).2) hwithin

theorem nodup_cycleAt (hg : g.Closed) (hfirst : g.Leader first) :
    (g.cycleAt first).modules.Nodup :=
  (explores_cycleFrom hg (hg.mem_left hfirst.1) _).nodup

/-- The first module stands at the front only. -/
theorem exists_modules_eq_cons (hg : g.Closed) (hfirst : g.Leader first) :
    ∃ others, (g.cycleAt first).modules = first :: others ∧ first ∉ others := by
  obtain ⟨others, hothers⟩ := List.head?_eq_some_iff.mp (head?_cycleFrom (g := g))
  have hnodup := nodup_cycleAt hg hfirst
  rw [cycleAt, hothers] at hnodup
  exact ⟨others, hothers, (List.nodup_cons.mp hnodup).1⟩

/-- Every module of a cycle but the first is imported by one that is listed before it. -/
theorem exists_earlier (hg : g.Closed) (hfirst : g.Leader first) {before after : List String}
    (h : (g.cycleAt first).modules = before ++ id :: after) (hbefore : before ≠ []) :
    ∃ earlier ∈ before, g.Edge earlier id := by
  rcases exists_earlier_of_preorder_eq ((modules_eq_preorder hg hfirst).symm.trans h) with
    hstart | ⟨earlier, hearlier, hnext⟩
  · obtain ⟨start, before, rfl⟩ := List.exists_cons_of_ne_nil hbefore
    obtain ⟨others, hothers, hnot⟩ := exists_modules_eq_cons hg hfirst
    obtain ⟨-, hrest⟩ := List.cons.inj (hothers.symm.trans h)
    rw [← List.mem_singleton.mp hstart, hrest] at hnot
    exact absurd (List.mem_append_right before List.mem_cons_self) hnot
  · exact ⟨earlier, hearlier, (Cycle.mem_successors.mp hnext).1⟩

/-- In a simple cycle each module imports the next, and the last imports the first. -/
theorem isChain_closed (hg : g.Closed) (hfirst : g.Leader first)
    (hsimple : (g.cycleAt first).IsSimple g) :
    ((g.cycleAt first).modules ++ [first]).IsChain g.Edge := by
  have hnodup := nodup_cycleAt hg hfirst
  have hmem : ∀ x, x ∈ (g.cycleAt first).modules ↔ g.Mutual first x :=
    fun _ => hfirst.mem_cycleAt hg
  have hchain : (g.cycleAt first).modules.IsChain g.Edge :=
    isChain_of_earlier hnodup (fun _ _ _ => exists_earlier hg hfirst) hsimple
  refine hchain.append (.singleton first) fun last hlast next hnext => ?_
  obtain rfl : next = first := by simpa using hnext.symm
  obtain ⟨front, hfront⟩ := List.getLast?_eq_some_iff.mp hlast
  obtain ⟨others, hothers, hnot⟩ := exists_modules_eq_cons hg hfirst
  have hlast : g.Mutual next last := (hmem last).mp (by simp [hfront])
  by_cases hone : last = next
  · -- the only module of the cycle imports itself
    obtain ⟨a, hedge, hback⟩ := TransGen.head'_iff.mp hfirst.1
    have ha : a ∈ front ++ [last] := by
      rw [← hfront, hmem]
      exact ⟨.single hedge, hfirst.1.trans_right hback⟩
    cases front with
    | nil =>
      rw [List.mem_singleton.mp ha] at hedge
      rwa [hone] at hedge ⊢
    | cons start front =>
      obtain ⟨-, hrest⟩ := List.cons.inj (hothers.symm.trans hfront)
      rw [hrest, hone] at hnot
      exact absurd (List.mem_append_right front List.mem_cons_self) hnot
  · obtain ⟨a, hto, hne, hedge⟩ := exists_last_step hlast.2 hone
    have ha : g.Mutual next a := ⟨hlast.1.trans_left hto, .single hedge⟩
    have hmema : a ∈ front ++ [last] := by rwa [← hfront, hmem]
    rcases List.mem_append.mp hmema with hmema | hmema
    · -- a module before the last imports the next one, and no other
      have htail := mem_tail_of_chain (b := next) (hfront ▸ hchain) (hfront ▸ hnodup)
        (fun b hb hba hedge' => hsimple a ((hmem a).mpr ha) next
          ((hmem next).mpr (mutual_self_iff.mpr hfirst.1)) b (hfront ▸ hb) (Ne.symm hne) hba hedge
          hedge') hmema
      rw [← hfront, hothers] at htail
      exact absurd htail hnot
    · rwa [← List.mem_singleton.mp hmema]

/-- A cycle is listed in the depth-first preorder from a module on, which is the least one. -/
structure ListedFrom (g : Graph) (c : Cycle) (first : String) : Prop where
  mem_iff : ∀ id, id ∈ c.modules ↔ g.Mutual first id
  /-- the first module is the least by its bytes -/
  least : ∀ id ∈ c.modules, id ≠ first → Text.bytes first < Text.bytes id
  successors : ∀ id a, a ∈ c.successors g id ↔ g.Edge id a ∧ a ∈ c.modules
  ascending : ∀ id, (c.successors g id).Pairwise fun a b => Text.bytes a < Text.bytes b
  modules_eq : c.modules = preorder (c.successors g) c.modules.toFinset [first]
  nodup : c.modules.Nodup
  /-- a module after the first is imported by one before it -/
  earlier : ∀ before id after, c.modules = before ++ id :: after → before ≠ [] →
    ∃ importer ∈ before, g.Edge importer id
  /-- the text of a simple cycle shows a path along the edges that ends where it starts -/
  path : c.IsSimple g → c.path = Text.join " -> " (c.modules ++ [first]) ∧
    (c.modules ++ [first]).IsChain g.Edge

/-- In whatever way a graph was built, each of its cycles is listed depth first from its least module
on, as the recursive search would list it. -/
theorem cycles_listedFrom (calls : List GraphBuilder.Call) :
    ∀ c ∈ (ofCalls calls).cycles, ∃ first, c.modules.head? = some first ∧
      (ofCalls calls).ListedFrom c first := by
  intro c hc
  have hg := closed_ofCalls calls
  obtain ⟨first, hfirst, rfl⟩ := (mem_cycles hg).mp hc
  refine ⟨first, head?_cycleFrom, ?_⟩
  constructor
  case mem_iff => exact fun _ => hfirst.mem_cycleAt hg
  case least =>
    intro id hid hne
    have hle := hfirst.2 id ((hfirst.mem_cycleAt hg).mp hid)
    exact Text.bytes_lt_bytes_iff.mpr (lt_of_le_of_ne hle hne.symm)
  case successors => exact fun _ _ => Cycle.mem_successors
  case ascending =>
    intro id
    have hsorted := (GraphBuilder.run calls).dependencies_build_pairwise id
    exact (hsorted.imp Text.bytes_lt_bytes_iff.mpr).filter _
  case modules_eq => exact modules_eq_preorder hg hfirst
  case nodup => exact nodup_cycleAt hg hfirst
  case earlier => exact fun _ _ _ => exists_earlier hg hfirst
  case path =>
    intro hsimple
    refine ⟨?_, isChain_closed hg hfirst hsimple⟩
    rw [Cycle.path, Cycle.closed, cycleAt, head?_cycleFrom]
    rfl

/-- A program with three modules that import each other in a ring. -/
def ringCalls : List GraphBuilder.Call :=
  ["main", "models", "routes", "utils"].map (.addModule · .python) ++
    [.addImport "main" "utils", .addImport "main" "routes", .addImport "routes" "models",
      .addImport "models" "utils", .addImport "utils" "routes"]

theorem cycles_listedFrom_ringCalls :
    let g := ofCalls ringCalls
    let c : Cycle := ⟨["models", "utils", "routes"]⟩
    (c ∈ g.cycles ∧ c.IsSimple g) ∧
    ∃ first, c.modules.head? = some first ∧ g.ListedFrom c first := by
  intro g c
  have hc : c ∈ g.cycles := by decide +kernel
  have hsimple : ∀ id ∈ c.modules, ∀ a ∈ c.modules, ∀ b ∈ c.modules, a ≠ id → b ≠ id →
      g.hasEdge id a = true → g.hasEdge id b = true → b = a := by
    decide +kernel
  simp only [hasEdge_iff] at hsimple
  exact ⟨⟨hc, hsimple⟩, cycles_listedFrom ringCalls c hc⟩

end Graph

end ModuleAtlas
