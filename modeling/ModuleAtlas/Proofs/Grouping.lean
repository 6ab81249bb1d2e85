import Mathlib.Algebra.BigOperators.Group.List.Basic
import Mathlib.Algebra.GroupWithZero.Nat
import Mathlib.Data.List.Perm.Basic

/-!
# Items in groups

Items are grouped by a label, with one group for each key. Together the groups have every item once
(`flatMap_filter_perm`), so what is counted in all groups is counted among the items (`sum_countP`).
The other way round, a group is found again among all items by its label
(`filter_flatMap_eq_of_mem`).
-/

namespace ModuleAtlas

variable {ι κ β : Type} [DecidableEq κ]

/-- Items that are grouped by a key stay the same items, each as often as before. -/
theorem flatMap_filter_perm {keys : List κ} {items : List ι}
    (label : ι → κ) (hkeys : keys.Nodup) (hlabel : ∀ item ∈ items, label item ∈ keys) :
    (keys.flatMap fun k => items.filter (label · = k)).Perm items := by
  have hgroups : (keys.flatMap fun k => items.filter (label · = k)).Perm
      (items.filter (label · ∈ keys)) := by
    -- for keys that leave items out, only those with one of the keys remain
    clear hlabel
    induction keys with
    | nil => simp
    | cons k keys ih =>
      obtain ⟨hk, hkeys⟩ := List.nodup_cons.mp hkeys
      have hfirst : (items.filter (label · ∈ k :: keys)).filter (label · = k)
          = items.filter (label · = k) := by
        rw [List.filter_filter]
        refine List.filter_congr fun item _ => ?_
        by_cases heq : label item = k <;> simp [heq]
      have hothers : (items.filter (label · ∈ k :: keys)).filter (fun item => !(label item = k))
          = items.filter (label · ∈ keys) := by
        rw [List.filter_filter]
        refine List.filter_congr fun item _ => ?_
        by_cases heq : label item = k <;> simp [heq, hk]
      have hsplit := List.filter_append_perm (fun item => decide (label item = k))
        (items.filter (label · ∈ k :: keys))
      rw [hfirst, hothers] at hsplit
      rw [List.flatMap_cons]
      exact ((ih hkeys).append_left _).trans hsplit
  have hall : items.filter (label · ∈ keys) = items := by
    refine List.filter_eq_self.mpr fun item hitem => ?_
    exact decide_eq_true (hlabel item hitem)
  rwa [hall] at hgroups

/-- What is counted group by group is counted among all items. -/
theorem sum_countP {keys : List κ} {items : List ι} (label : ι → κ) (hkeys : keys.Nodup)
    (hlabel : ∀ item ∈ items, label item ∈ keys) (p : ι → Bool) :
    (keys.map fun k => (items.filter (label · = k)).countP p).sum = items.countP p := by
  rw [← (flatMap_filter_perm label hkeys hlabel).countP_eq, List.countP_flatMap]
  rfl

/-- Where the items of each part show the label of their part, those that show the label of one part
are that part. -/
theorem filter_flatMap_eq_of_mem {items : List ι} {item : ι}
    {label : ι → κ} {part : ι → List β} {shown : β → Bool} (hlabels : (items.map label).Nodup)
    (hitem : item ∈ items) (hshown : ∀ i, ∀ x ∈ part i, shown x = decide (label i = label item)) :
    (items.flatMap part).filter shown = part item := by
  have hother : ∀ i, label i ≠ label item → (part i).filter shown = [] := by
    intro i hne
    refine List.filter_eq_nil_iff.mpr fun x hx => ?_
    rw [hshown i x hx, decide_eq_true_eq]
    exact hne
  have hself : (part item).filter shown = part item := by
    refine List.filter_eq_self.mpr fun x hx => ?_
    rw [hshown item x hx, decide_eq_true_eq]
  rw [List.filter_flatMap]
  induction items with
  | nil => cases hitem
  | cons i rest ih =>
    obtain ⟨hi, hrest⟩ := List.nodup_cons.mp hlabels
    rw [List.flatMap_cons]
    rcases List.mem_cons.mp hitem with rfl | hmem
    · have hnone : (rest.flatMap fun j => (part j).filter shown) = [] := by
        refine List.flatMap_eq_nil_iff.mpr fun j hj => hother j fun heq => hi ?_
        rw [← heq]
        exact List.mem_map_of_mem hj
      rw [hself, hnone, List.append_nil]
    · have hne : label i ≠ label item := by
        intro heq
        rw [heq] at hi
        exact hi (List.mem_map_of_mem hmem)
      rw [hother i hne, List.nil_append]
      exact ih hrest hmem

end ModuleAtlas
