import Mathlib.Data.List.Count
import ModuleAtlas.Proofs.Graph.Edge

/-!
# Walks are explorations

A breadth-first walk explores from its starts whatever was not marked before, and marks what it
visits. `Walk.Ready` is what holds between two visits: the queue is marked but not visited, and the
units that are left suffice for the queue and for all that is not marked. It survives a visit
(`Ready.step`), and so a run from a ready queue is an exploration (`Ready.explores_run`). Walks one
after the other share their marks, hence a sweep is an exploration too.
-/

namespace ModuleAtlas

open Relation (ReflTransGen TransGen)
open Std (TreeSet)

namespace Walk

variable {next : String → List String} {marked : TreeSet String} {ids queue : List String}
  {before : Set String} {id : String} {fuel : Nat}

/-- Before anything is marked, the set of marked modules is empty. -/
theorem setOf_mem_empty : {x | x ∈ (∅ : TreeSet String)} = (∅ : Set String) := by
  ext x
  simp

theorem mem_insert_iff {x : String} : x ∈ marked.insert id ↔ x = id ∨ x ∈ marked := by
  rw [TreeSet.mem_insert, Std.compare_eq_iff_eq, @eq_comm _ id x]

theorem mem_mark {ids : List String} {x : String} :
    x ∈ mark marked ids ↔ x ∈ marked ∨ x ∈ ids := by
  simp [mark, TreeSet.mem_insertMany_list]

theorem mem_fresh {ids : List String} {x : String} :
    x ∈ fresh marked ids ↔ x ∈ ids ∧ x ∉ marked := by
  induction ids generalizing marked with
  | nil => simp [fresh]
  | cons y ids ih =>
    simp only [fresh, TreeSet.contains_iff_mem]
    by_cases hy : y ∈ marked
    · rw [if_pos hy, ih, List.mem_cons]
      exact ⟨fun h => ⟨.inr h.1, h.2⟩, fun h => ⟨h.1.resolve_left (fun e => h.2 (e ▸ hy)), h.2⟩⟩
    · rw [if_neg hy, List.mem_cons, ih, List.mem_cons, mem_insert_iff]
      by_cases hxy : x = y
      · simp [hxy, hy]
      · simp [hxy]

theorem nodup_fresh (marked : TreeSet String) (ids : List String) : (fresh marked ids).Nodup := by
  induction ids generalizing marked with
  | nil => exact List.nodup_nil
  | cons y ids ih =>
    simp only [fresh]
    split
    · exact ih marked
    · refine List.nodup_cons.mpr ⟨fun hy => ?_, ih _⟩
      exact (mem_fresh.mp hy).2 TreeSet.mem_insert_self

/-- Marking new modules takes them from those that are not marked. -/
theorem length_add_unmarked_le {new : List String} (hids : ids.Nodup) (hnew : new.Nodup)
    (hsub : ∀ x ∈ new, x ∈ ids ∧ x ∉ marked) :
    new.length + (ids.filter (· ∉ mark marked new)).length
      ≤ (ids.filter (· ∉ marked)).length := by
  rw [← List.length_append]
  refine (List.subperm_of_subset ?_ ?_).length_le
  · refine List.nodup_append'.mpr ⟨hnew, hids.filter _, ?_⟩
    intro x hx hx'
    have hnot : x ∉ mark marked new := by simpa using (List.mem_filter.mp hx').2
    exact hnot (mem_mark.mpr (Or.inr hx))
  · intro x hx
    rcases List.mem_append.mp hx with hx | hx
    · simpa using hsub x hx
    · simp only [List.mem_filter, decide_eq_true_eq, mem_mark, not_or] at hx ⊢
      exact ⟨hx.1, hx.2.1⟩

/-- What holds between two visits of a walk among the modules `ids`. -/
structure Ready (ids : List String) (before : Set String) (queue : List String)
    (marked : TreeSet String) (fuel : Nat) : Prop where
  mem_marked : ∀ x, x ∈ marked ↔ x ∈ before ∨ x ∈ queue
  nodup : queue.Nodup
  fresh : ∀ x ∈ queue, x ∉ before
  known : ∀ x ∈ queue, x ∈ ids
  enough : queue.length + (ids.filter (· ∉ marked)).length ≤ fuel

/-- A walk is ready when its starts have entered the queue. -/
theorem ready_fresh (hids : ids.Nodup) (marked : TreeSet String) {starts : List String}
    (hstarts : ∀ x ∈ starts, x ∈ ids) :
    Ready ids {x | x ∈ marked} (fresh marked starts) (mark marked (fresh marked starts))
      ids.length where
  mem_marked := fun _ => mem_mark
  nodup := nodup_fresh marked starts
  fresh := fun _ hx => (mem_fresh.mp hx).2
  known := fun x hx => hstarts x (mem_fresh.mp hx).1
  enough := by
    refine (length_add_unmarked_le hids (nodup_fresh marked starts) ?_).trans
      (List.length_filter_le _ ids)
    exact fun x hx => ⟨hstarts x (mem_fresh.mp hx).1, (mem_fresh.mp hx).2⟩

namespace Ready

variable (hids : ids.Nodup) (hnext : ∀ x ∈ ids, ∀ y ∈ next x, y ∈ ids)

include hids hnext in
/-- A visit leaves the walk ready, with what was reached from there at the end of the queue. -/
theorem step (h : Ready ids before (id :: queue) marked (fuel + 1)) :
    Ready ids (insert id before) (queue ++ Walk.fresh marked (next id))
      (mark marked (Walk.fresh marked (next id))) fuel where
  mem_marked := by
    intro x
    simp only [mem_mark, h.mem_marked x, List.mem_cons, List.mem_append, Set.mem_insert_iff]
    tauto
  nodup := by
    refine List.nodup_append'.mpr ⟨h.nodup.of_cons, nodup_fresh marked _, ?_⟩
    intro x hx hx'
    exact (mem_fresh.mp hx').2 ((h.mem_marked x).mpr (Or.inr (List.mem_cons_of_mem id hx)))
  fresh := by
    intro x hx
    rw [Set.mem_insert_iff, not_or]
    rcases List.mem_append.mp hx with hq | hx
    · refine ⟨?_, h.fresh x (List.mem_cons_of_mem id hq)⟩
      rintro rfl
      exact (List.nodup_cons.mp h.nodup).1 hq
    · have hnot := (mem_fresh.mp hx).2
      rw [h.mem_marked, not_or, List.mem_cons, not_or] at hnot
      exact ⟨hnot.2.1, hnot.1⟩
  known := by
    intro x hx
    rcases List.mem_append.mp hx with hx | hx
    · exact h.known x (List.mem_cons_of_mem id hx)
    · exact hnext id (h.known id List.mem_cons_self) x (mem_fresh.mp hx).1
  enough := by
    have hle := length_add_unmarked_le hids (nodup_fresh marked (next id)) (fun x hx =>
      ⟨hnext id (h.known id List.mem_cons_self) x (mem_fresh.mp hx).1, (mem_fresh.mp hx).2⟩)
    have henough := h.enough
    rw [List.length_cons] at henough
    rw [List.length_append]
    omega

include hids hnext in
/-- A run from a ready queue explores from the queue, and marks what it visits. -/
theorem explores_run (h : Ready ids before queue marked fuel) :
    Explores next queue before (run next fuel queue marked).visits ∧
      ∀ x, x ∈ (run next fuel queue marked).marked ↔
        x ∈ before ∨ x ∈ (run next fuel queue marked).visits := by
  induction fuel generalizing before queue marked with
  | zero =>
    have hlen : queue.length = 0 := by have := h.enough; omega
    obtain rfl := List.length_eq_zero_iff.mp hlen
    exact ⟨.nil, h.mem_marked⟩
  | succ fuel ih =>
    cases queue with
    | nil => exact ⟨.nil, h.mem_marked⟩
    | cons id queue =>
      obtain ⟨hexp, hmarked⟩ := ih (h.step hids hnext)
      simp only [run]
      refine ⟨Explores.cons (hexp.of_starts ?_ ?_) (h.fresh id List.mem_cons_self), ?_⟩
      · intro x hx
        rcases List.mem_append.mp hx with hx | hx
        · exact List.mem_append_right _ hx
        · exact List.mem_append_left _ (mem_fresh.mp hx).1
      · -- a successor that did not enter the queue now was marked, that is, visited or queued
        intro x hx
        by_cases hm : x ∈ marked
        · rcases (h.mem_marked x).mp hm with hb | hq
          · exact Or.inl (Set.mem_insert_of_mem id hb)
          · rcases List.mem_cons.mp hq with rfl | hq
            · exact Or.inl (Set.mem_insert x before)
            · exact Or.inr (List.mem_append_left _ hq)
        · rcases List.mem_append.mp hx with hx | hx
          · exact Or.inr (List.mem_append_right _ (mem_fresh.mpr ⟨hx, hm⟩))
          · exact absurd ((h.mem_marked x).mpr (Or.inr (List.mem_cons_of_mem id hx))) hm
      · intro x
        rw [hmarked, Set.mem_insert_iff, List.mem_cons]
        tauto

end Ready

end Walk

namespace Graph

variable {g : Graph}

/-- The exploration that a walk makes: of what its starts reach outside of the marked modules, which
it marks. -/
structure Walks (g : Graph) (starts : List String) (marked : TreeSet String) (w : Walk) : Prop where
  explores : Explores g.dependencies starts {x | x ∈ marked} w.visits
  mem_marked : ∀ x, x ∈ w.marked ↔ x ∈ marked ∨ x ∈ w.visits

theorem walks_walk (hg : g.Closed) {starts : List String} (hstarts : ∀ x ∈ starts, x ∈ g.ids)
    (marked : TreeSet String) : g.Walks starts marked (g.walk starts marked) := by
  have hready := Walk.ready_fresh g.ids_nodup marked hstarts
  rw [length_ids] at hready
  obtain ⟨hexp, hmarked⟩ := hready.explores_run g.ids_nodup hg.dependencies
  refine ⟨hexp.of_starts (fun x hx => (Walk.mem_fresh.mp hx).1) ?_, hmarked⟩
  intro x hx
  by_cases hm : x ∈ marked
  · exact Or.inl hm
  · exact Or.inr (Walk.mem_fresh.mpr ⟨hx, hm⟩)

/-- A walk that starts from the marks of another one continues it. -/
theorem Walks.append {starts starts' : List String} {marked : TreeSet String} {w w' : Walk}
    (h : g.Walks starts marked w) (h' : g.Walks starts' w.marked w') :
    g.Walks (starts ++ starts') marked ⟨w.visits ++ w'.visits, w'.marked⟩ := by
  have hunion : {x | x ∈ w.marked} = {x | x ∈ marked} ∪ {x | x ∈ w.visits} :=
    Set.ext h.mem_marked
  refine ⟨h.explores.append (hunion ▸ h'.explores), ?_⟩
  intro x
  rw [h'.mem_marked, h.mem_marked, List.mem_append, or_assoc]

theorem walks_sweep (hg : g.Closed) {starts : List String} (hstarts : ∀ x ∈ starts, x ∈ g.ids)
    (marked : TreeSet String) : g.Walks starts marked (g.sweep starts marked) := by
  induction starts generalizing marked with
  | nil => exact ⟨.nil, by simp [sweep]⟩
  | cons id starts ih =>
    obtain ⟨hid, hrest⟩ := List.forall_mem_cons.mp hstarts
    have hone : ∀ x ∈ [id], x ∈ g.ids := List.forall_mem_singleton.mpr hid
    exact (walks_walk hg hone marked).append (ih hrest _)

/-- A walk with nothing marked visits exactly what its starts reach. -/
theorem Walks.mem_visits_iff {starts : List String} {w : Walk} (h : g.Walks starts ∅ w)
    {x : String} : x ∈ w.visits ↔ ∃ s ∈ starts, ReflTransGen g.Edge s x := by
  exact Explores.mem_iff (Walk.setOf_mem_empty ▸ h.explores)

/-- A walk with nothing marked marks exactly what it visits. -/
theorem Walks.mem_marked_iff {starts : List String} {w : Walk} (h : g.Walks starts ∅ w)
    {x : String} : x ∈ w.marked ↔ ∃ s ∈ starts, ReflTransGen g.Edge s x := by
  rw [h.mem_marked, h.mem_visits_iff]
  simp

theorem walks_downstream (hg : g.Closed) (id : String) :
    g.Walks (g.dependencies id) ∅ (g.downstream id) :=
  walks_walk hg (fun _ h => (hg h).2) ∅

/-- Downstream of a module is what it reaches along one edge or more. -/
theorem mem_visits_downstream (hg : g.Closed) {a b : String} :
    b ∈ (g.downstream a).visits ↔ g.Reaches a b := by
  rw [(walks_downstream hg a).mem_visits_iff, Reaches, TransGen.head'_iff]
  rfl

theorem mem_marked_downstream (hg : g.Closed) {a b : String} :
    b ∈ (g.downstream a).marked ↔ g.Reaches a b := by
  rw [(walks_downstream hg a).mem_marked_iff, ← (walks_downstream hg a).mem_visits_iff,
    mem_visits_downstream hg]

end Graph

end ModuleAtlas
