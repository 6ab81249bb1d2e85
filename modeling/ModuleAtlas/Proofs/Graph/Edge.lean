import Mathlib.Algebra.GroupWithZero.Nat
import ModuleAtlas.Proofs.Graph.Exploration

/-!
# Edges and paths

The import relation of a graph, and reaching along one edge or more. In a closed graph no edge leads
out, so whatever a module reaches is a module of the graph.
-/

namespace ModuleAtlas

theorem total_eq_sum (counts : List Nat) : total counts = counts.sum := rfl

namespace Graph

open Relation (ReflTransGen TransGen)

variable {g : Graph} {a b c : String}

/-- `a` imports `b`. -/
def Edge (g : Graph) (a b : String) : Prop := b ∈ g.dependencies a

/-- `a` reaches `b` along one edge or more. -/
def Reaches (g : Graph) (a b : String) : Prop := TransGen g.Edge a b

/-- `a` and `b` reach each other. -/
def Mutual (g : Graph) (a b : String) : Prop := g.Reaches a b ∧ g.Reaches b a

/-- Both ends of every edge are modules of the graph. -/
def Closed (g : Graph) : Prop := ∀ ⦃a b⦄, g.Edge a b → a ∈ g.ids ∧ b ∈ g.ids

theorem hasEdge_iff : g.hasEdge a b = true ↔ g.Edge a b := List.contains_iff_mem

theorem hasSelfLoop_iff : g.hasSelfLoop a = true ↔ g.Edge a a := hasEdge_iff

theorem mem_dependents_iff (hg : g.Closed) : a ∈ g.dependents b ↔ g.Edge a b := by
  simp only [dependents, List.mem_filter, hasEdge_iff]
  exact ⟨And.right, fun h => ⟨(hg h).1, h⟩⟩

/-- The modules are in strictly ascending order. -/
theorem ids_pairwise (g : Graph) : g.ids.Pairwise (· < ·) := g.nodes.keys_pairwise

theorem ids_nodup (g : Graph) : g.ids.Nodup := g.nodes.keys_nodup

theorem length_ids (g : Graph) : g.ids.length = g.moduleCount := List.length_map _

namespace Mutual

theorem symm (h : g.Mutual a b) : g.Mutual b a := ⟨h.2, h.1⟩

theorem trans (h : g.Mutual a b) (h' : g.Mutual b c) : g.Mutual a c :=
  ⟨h.1.trans h'.1, h'.2.trans h.2⟩

/-- A module that shares a cycle with another one is on a cycle itself. -/
theorem refl_left (h : g.Mutual a b) : g.Mutual a a := h.trans h.symm

end Mutual

/-- A module on a closed path shares a cycle with itself. -/
theorem mutual_self_iff : g.Mutual a a ↔ g.Reaches a a := and_self_iff

namespace Closed

theorem dependencies (hg : g.Closed) : ∀ x ∈ g.ids, ∀ y ∈ g.dependencies x, y ∈ g.ids :=
  fun _ _ _ h => (hg h).2

/-- Only modules of the graph reach anything. -/
theorem mem_left (hg : g.Closed) (h : g.Reaches a b) : a ∈ g.ids := by
  obtain ⟨_, hedge, -⟩ := TransGen.head'_iff.mp h
  exact (hg hedge).1

/-- Only modules of the graph are reached. -/
theorem mem_right (hg : g.Closed) (h : g.Reaches a b) : b ∈ g.ids := by
  obtain ⟨_, -, hedge⟩ := TransGen.tail'_iff.mp h
  exact (hg hedge).2

end Closed

end Graph

end ModuleAtlas
