import ModuleAtlas.DeadExport
import ModuleAtlas.Proofs.Graph.Builder
import ModuleAtlas.Proofs.Graph.Walk

/-!
# Entry points and what they reach

The entry points of a graph are its seeds: configured modules, modules with a conventional file
name, and modules at the root that no other module imports. A module is unreachable exactly if no
path leads to it from a seed. The walk from the seeds and the sweep after it share their marks, and
together they visit every module once.
-/

namespace ModuleAtlas.Graph

open Relation (ReflTransGen)

variable {g : Graph} {configured more : List String} {id : String}

/-! ## Seeds -/

/-- A module from which the walk starts. -/
def Seed (g : Graph) (configured : List String) (id : String) : Prop :=
  id ∈ g.ids ∧ (id ∈ configured ∨ Path.fileName id ∈ conventionalEntries ∨
    Path.depth id = 0 ∧ ∀ importer, g.Edge importer id → importer = id)

theorem isNaturalEntry_iff (hg : g.Closed) :
    g.isNaturalEntry id = true ↔ Path.fileName id ∈ conventionalEntries ∨
      Path.depth id = 0 ∧ ∀ importer, g.Edge importer id → importer = id := by
  simp only [isNaturalEntry, Bool.or_eq_true, List.contains_iff_mem, Bool.and_eq_true, beq_iff_eq,
    List.all_eq_true, mem_dependents_iff hg]

/-- The entry points are exactly the seeds. -/
theorem mem_entryPoints (hg : g.Closed) : id ∈ g.entryPoints configured ↔ g.Seed configured id := by
  rw [entryPoints, List.mem_filter, Bool.or_eq_true, List.contains_iff_mem, isNaturalEntry_iff hg]
  rfl

/-- A configured module stays a seed, whatever else is configured. -/
theorem Seed.mono (hsub : ∀ entry ∈ configured, entry ∈ more) (h : g.Seed configured id) :
    g.Seed more id :=
  ⟨h.1, h.2.imp_left (hsub id)⟩

/-! ## The walk from the seeds -/

theorem walks_entryWalk (hg : g.Closed) (configured : List String) :
    g.Walks (g.entryPoints configured) ∅ (g.entryWalk configured) :=
  walks_walk hg (fun _ h => (List.mem_filter.mp h).1) ∅

theorem mem_marked_entryWalk (hg : g.Closed) :
    id ∈ (g.entryWalk configured).marked ↔
      ∃ seed, g.Seed configured seed ∧ ReflTransGen g.Edge seed id := by
  rw [(walks_entryWalk hg configured).mem_marked_iff]
  simp only [mem_entryPoints hg]

/-- A module is unreachable exactly if no path leads to it from a seed. -/
theorem mem_unreachable (hg : g.Closed) :
    id ∈ g.unreachable configured ↔
      id ∈ g.ids ∧ ¬ ∃ seed, g.Seed configured seed ∧ ReflTransGen g.Edge seed id := by
  rw [unreachable, List.mem_filter, Bool.not_eq_true', ← Bool.not_eq_true,
    Std.TreeSet.contains_iff_mem, mem_marked_entryWalk hg]

/-- A seed leads to the module. -/
def Reached (g : Graph) (configured : List String) (id : String) : Prop :=
  ∃ seed, g.Seed configured seed ∧ ReflTransGen g.Edge seed id

theorem not_mem_unreachable_iff (hg : g.Closed) (hid : id ∈ g.ids) :
    id ∉ g.unreachable configured ↔ g.Reached configured id := by
  rw [mem_unreachable hg, not_and, not_not]
  exact forall_prop_of_true hid

/-- A module is reached as a seed or from a module that is reached. -/
theorem reached_iff : g.Reached configured id ↔
    g.Seed configured id ∨ ∃ importer, g.Reached configured importer ∧ g.Edge importer id := by
  constructor
  · rintro ⟨seed, hseed, hpath⟩
    rcases ReflTransGen.cases_tail hpath with rfl | ⟨importer, hpath, hedge⟩
    · exact Or.inl hseed
    · exact Or.inr ⟨importer, ⟨seed, hseed, hpath⟩, hedge⟩
  · rintro (hseed | ⟨importer, ⟨seed, hseed, hpath⟩, hedge⟩)
    · exact ⟨id, hseed, .refl⟩
    · exact ⟨seed, hseed, hpath.tail hedge⟩

theorem unreachable_pairwise (g : Graph) (configured : List String) :
    (g.unreachable configured).Pairwise (· < ·) :=
  g.ids_pairwise.filter _

/-- More configured entries leave no more modules unreachable. -/
theorem unreachable_sublist (hg : g.Closed) (hsub : ∀ entry ∈ configured, entry ∈ more) :
    (g.unreachable more).Sublist (g.unreachable configured) := by
  refine List.monotone_filter_right g.ids fun x hx => ?_
  rw [Bool.not_eq_true', ← Bool.not_eq_true, Std.TreeSet.contains_iff_mem,
    mem_marked_entryWalk hg] at hx ⊢
  rintro ⟨seed, hseed, hpath⟩
  exact hx ⟨seed, hseed.mono hsub, hpath⟩

/-! ## The sweep after the walk -/

/-- The walk and the sweep are one walk from the seeds and then from all modules. -/
theorem walks_visits (hg : g.Closed) (configured : List String) :
    g.Walks (g.entryPoints configured ++ g.ids) ∅
      ⟨g.visits configured, (g.sweep g.ids (g.entryWalk configured).marked).marked⟩ :=
  (walks_entryWalk hg configured).append (walks_sweep hg (fun _ h => h) _)

theorem visits_nodup (hg : g.Closed) (configured : List String) : (g.visits configured).Nodup :=
  (walks_visits hg configured).explores.nodup

/-- The modules of the graph are visited, and no others. -/
theorem mem_visits (hg : g.Closed) : id ∈ g.visits configured ↔ id ∈ g.ids := by
  have hexp := (walks_visits hg configured).explores
  -- the sweep starts from all modules, and nothing was visited before the walk
  constructor
  · refine hexp.subset hg.dependencies (List.forall_mem_append.mpr ⟨?_, fun _ h => h⟩) id
    exact fun _ h => (List.mem_filter.mp h).1
  · intro hid
    refine (hexp.covers id (List.mem_append_right _ hid)).resolve_left ?_
    simp

/-- In whatever way a graph was built, its entry points are its seeds, the unreachable modules are
in ascending order those to which no seed leads, the walk and the sweep visit every module once, and
one more configured entry leaves no more modules unreachable. -/
theorem unreachable_ofCalls (calls : List GraphBuilder.Call) (configured : List String) :
    let g := ofCalls calls
    (∀ id, id ∈ g.entryPoints configured ↔ g.Seed configured id) ∧
    (g.unreachable configured).Pairwise (· < ·) ∧
    (∀ id, id ∈ g.unreachable configured ↔
      id ∈ g.ids ∧ ¬ ∃ seed, g.Seed configured seed ∧ ReflTransGen g.Edge seed id) ∧
    (g.visits configured).Nodup ∧ (∀ id, id ∈ g.visits configured ↔ id ∈ g.ids) ∧
    ∀ position entry,
      (g.unreachable (configured.insertIdx position entry)).Sublist (g.unreachable configured) := by
  have hg := closed_ofCalls calls
  refine ⟨fun id => mem_entryPoints hg, unreachable_pairwise _ _, fun id => mem_unreachable hg,
    visits_nodup hg configured, fun id => mem_visits hg, fun position entry => ?_⟩
  refine unreachable_sublist hg fun other hother => ?_
  rcases Nat.lt_or_ge configured.length position with hlt | hle
  · rwa [List.insertIdx_of_length_lt hlt]
  · exact (List.mem_insertIdx hle).mpr (Or.inr hother)

end ModuleAtlas.Graph
