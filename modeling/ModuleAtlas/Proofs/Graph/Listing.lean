import Mathlib.Algebra.Order.BigOperators.Group.List
import ModuleAtlas.Graph.Cycle
import ModuleAtlas.Proofs.Graph.Preorder
import ModuleAtlas.Proofs.Graph.Walk

/-!
# Listings are depth-first preorders

A depth-first listing takes modules off a stack on which a module may stand more than once, and passes
over those that were listed in the meantime. What it lists is the preorder of the recursive search
(`listing_eq_preorder`), as long as its units suffice for the stack and for the edges out of all that
is not listed. Hence it explores from the stack whatever was not listed before. For the listing of a
cycle, one unit for each edge of the graph and one for the start suffice.
-/

namespace ModuleAtlas

open Std (TreeSet)

namespace Graph

variable {next : String → List String} {ids stack : List String} {listed : TreeSet String}
  {id : String} {fuel : Nat}

/-- The number of edges out of the modules that are not listed. -/
def edgesLeft (next : String → List String) (ids : List String) (listed : TreeSet String) : Nat :=
  ((ids.filter (· ∉ listed)).map fun x => (next x).length).sum

/-- Listing a module takes its edges from those that are left. -/
theorem length_add_edgesLeft (next : String → List String) (hids : ids.Nodup) (hid : id ∈ ids)
    (hnot : id ∉ listed) :
    (next id).length + edgesLeft next ids (listed.insert id) = edgesLeft next ids listed := by
  have hmem : id ∈ ids.filter (· ∉ listed) := List.mem_filter.mpr ⟨hid, by simpa using hnot⟩
  have herase : ids.filter (· ∉ listed.insert id) = (ids.filter (· ∉ listed)).erase id := by
    rw [(hids.filter _).erase_eq_filter, List.filter_filter]
    refine List.filter_congr fun x _ => ?_
    rw [Bool.eq_iff_iff, decide_eq_true_eq, Walk.mem_insert_iff, not_or]
    simp
  rw [edgesLeft, edgesLeft, herase]
  exact List.sum_map_erase (fun x => (next x).length) hmem

/-- The modules that are not listed. -/
def unlisted (ids : List String) (listed : TreeSet String) : Finset String :=
  ids.toFinset.filter (· ∉ listed)

theorem mem_unlisted {x : String} : x ∈ unlisted ids listed ↔ x ∈ ids ∧ x ∉ listed := by
  rw [unlisted, Finset.mem_filter, List.mem_toFinset]

theorem unlisted_insert (ids : List String) (listed : TreeSet String) (id : String) :
    unlisted ids (listed.insert id) = (unlisted ids listed).erase id := by
  ext x
  rw [Finset.mem_erase, mem_unlisted, mem_unlisted, Walk.mem_insert_iff, not_or]
  tauto

/-- A listing with enough units is the preorder of what is not listed. -/
theorem listing_eq_preorder (hids : ids.Nodup) (hnext : ∀ x ∈ ids, ∀ y ∈ next x, y ∈ ids)
    (hstack : ∀ x ∈ stack, x ∈ ids) (henough : stack.length + edgesLeft next ids listed ≤ fuel) :
    listing next fuel stack listed = preorder next (unlisted ids listed) stack := by
  induction fuel generalizing stack listed with
  | zero =>
    have hlen : stack.length = 0 := by omega
    obtain rfl := List.length_eq_zero_iff.mp hlen
    rw [listing, preorder]
  | succ fuel ih =>
    cases stack with
    | nil => rw [listing, preorder]
    | cons id stack =>
      obtain ⟨hid, hrest⟩ := List.forall_mem_cons.mp hstack
      rw [List.length_cons] at henough
      simp only [listing, TreeSet.contains_iff_mem]
      by_cases hlisted : id ∈ listed
      · have hnot : id ∉ unlisted ids listed := fun h => (mem_unlisted.mp h).2 hlisted
        rw [if_pos hlisted, preorder, if_neg hnot]
        exact ih hrest (by omega)
      · rw [if_neg hlisted]
        set pushed := (next id).filter fun successor => !(listed.insert id).contains successor
        have hpushed : ∀ x ∈ pushed, x ∈ next id := fun x hx => (List.mem_filter.mp hx).1
        have hleft := length_add_edgesLeft next hids hid hlisted
        have hlen : pushed.length ≤ (next id).length := List.length_filter_le _ _
        have hstack' : ∀ x ∈ pushed ++ stack, x ∈ ids :=
          List.forall_mem_append.mpr ⟨fun x hx => hnext id hid x (hpushed x hx), hrest⟩
        have henough' :
            (pushed ++ stack).length + edgesLeft next ids (listed.insert id) ≤ fuel := by
          rw [List.length_append]
          omega
        -- the successors that are not pushed were listed before
        have hall : preorder next (unlisted ids (listed.insert id)) pushed
            = preorder next (unlisted ids (listed.insert id)) (next id) := by
          refine preorder_filter fun x hx => ?_
          rw [Bool.not_eq_true', ← Bool.not_eq_true, TreeSet.contains_iff_mem]
          exact (mem_unlisted.mp hx).2
        rw [ih hstack' henough', preorder_append, hall, unlisted_insert, preorder,
          if_pos (mem_unlisted.mpr ⟨hid, hlisted⟩)]

/-- A listing with enough units explores from its stack. -/
theorem explores_listing (hids : ids.Nodup) (hnext : ∀ x ∈ ids, ∀ y ∈ next x, y ∈ ids)
    (hstack : ∀ x ∈ stack, x ∈ ids) (henough : stack.length + edgesLeft next ids listed ≤ fuel) :
    Explores next stack {x | x ∈ listed} (listing next fuel stack listed) := by
  rw [listing_eq_preorder hids hnext hstack henough]
  have hexplores := explores_preorder next (unlisted ids listed) stack
  have hfresh : ∀ x ∈ preorder next (unlisted ids listed) stack, x ∈ ids ∧ x ∉ listed :=
    fun x hx => mem_unlisted.mp (not_not.mp (hexplores.fresh x hx))
  have hlisted : ∀ x ∈ ids, x ∉ unlisted ids listed → x ∈ listed := by
    intro x hx hnot
    rw [mem_unlisted, not_and_not_right] at hnot
    exact hnot hx
  exact
    { nodup := hexplores.nodup
      fresh := fun x hx => (hfresh x hx).2
      covers := fun x hx => (hexplores.covers x hx).imp_left (hlisted x (hstack x hx))
      closed := fun x hx y hy =>
        (hexplores.closed x hx y hy).imp_left (hlisted y (hnext x (hfresh x hx).1 y hy))
      sound := hexplores.sound }

end Graph

end ModuleAtlas
