import Mathlib.Data.List.Nodup
import Mathlib.Data.String.Basic
import ModuleAtlas.Text.Sorted

/-!
# Sorted lists without repetition

Sorting by a key keeps items with the same key in their order (`filter_mergeSort`), and if no two
items have the same key, the order before sorting does not matter (`mergeSort_eq_of_perm`). Dropping
repeated keys from a sorted list leaves the first item of each key, in ascending order. Hence the
sorted list of some texts has exactly those texts as members (`mem_sortedUnique`), each once.
-/

namespace ModuleAtlas.Text

variable {α : Type} {key : α → String} {kept : String} {items : List α}

theorem atMost_iff {a b : String} : atMost a b = true ↔ a ≤ b := by
  rw [atMost, Bool.not_eq_true', decide_eq_false_iff_not, not_lt]

theorem dropRepeatsAfter_sublist (key : α → String) (kept : String) (items : List α) :
    (dropRepeatsAfter key kept items).Sublist items := by
  induction items generalizing kept with
  | nil => exact .slnil
  | cons a items ih =>
    rw [dropRepeatsAfter]
    split
    · exact (ih kept).cons a
    · exact (ih (key a)).cons_cons a

/-- What is left of a sorted list has strictly ascending keys, all greater than the one before. -/
theorem dropRepeatsAfter_pairwise (hsorted : items.Pairwise fun a b => key a ≤ key b)
    (hkept : ∀ a ∈ items, kept ≤ key a) :
    (dropRepeatsAfter key kept items).Pairwise (fun a b => key a < key b) ∧
      ∀ a ∈ dropRepeatsAfter key kept items, kept < key a := by
  induction items generalizing kept with
  | nil => exact ⟨.nil, by simp [dropRepeatsAfter]⟩
  | cons a items ih =>
    obtain ⟨hle, hrest⟩ := List.pairwise_cons.mp hsorted
    obtain ⟨ha, hkept⟩ := List.forall_mem_cons.mp hkept
    rw [dropRepeatsAfter]
    split
    · exact ih hrest hkept
    · rename_i hne
      obtain ⟨hpair, hlt⟩ := ih hrest hle
      have hfirst : kept < key a := lt_of_le_of_ne ha (Ne.symm hne)
      refine ⟨List.pairwise_cons.mpr ⟨hlt, hpair⟩, List.forall_mem_cons.mpr ⟨hfirst, ?_⟩⟩
      exact fun b hb => hfirst.trans (hlt b hb)

/-- No key is lost. -/
theorem exists_mem_dropRepeatsAfter (kept : String) {a : α} (ha : a ∈ items) :
    key a = kept ∨ ∃ b ∈ dropRepeatsAfter key kept items, key b = key a := by
  induction items generalizing kept with
  | nil => cases ha
  | cons c items ih =>
    rw [dropRepeatsAfter]
    rcases List.mem_cons.mp ha with rfl | ha
    · split
      · exact Or.inl ‹_›
      · exact Or.inr ⟨a, List.mem_cons_self, rfl⟩
    · split
      · exact ih kept ha
      · rcases ih (key c) ha with heq | ⟨b, hb, hkey⟩
        · exact Or.inr ⟨c, List.mem_cons_self, heq.symm⟩
        · exact Or.inr ⟨b, List.mem_cons_of_mem c hb, hkey⟩

theorem dropRepeatsBy_sublist (key : α → String) (items : List α) :
    (dropRepeatsBy key items).Sublist items := by
  cases items with
  | nil => exact .slnil
  | cons a items => exact (dropRepeatsAfter_sublist key (key a) items).cons_cons a

theorem dropRepeatsBy_pairwise (hsorted : items.Pairwise fun a b => key a ≤ key b) :
    (dropRepeatsBy key items).Pairwise fun a b => key a < key b := by
  cases items with
  | nil => exact .nil
  | cons a items =>
    obtain ⟨hle, hrest⟩ := List.pairwise_cons.mp hsorted
    obtain ⟨hpair, hlt⟩ := dropRepeatsAfter_pairwise hrest hle
    exact List.pairwise_cons.mpr ⟨hlt, hpair⟩

theorem exists_mem_dropRepeatsBy (key : α → String) {a : α} (ha : a ∈ items) :
    ∃ b ∈ dropRepeatsBy key items, key b = key a := by
  cases items with
  | nil => cases ha
  | cons c items =>
    rcases List.mem_cons.mp ha with rfl | ha
    · exact ⟨a, List.mem_cons_self, rfl⟩
    · rcases exists_mem_dropRepeatsAfter (key c) ha with heq | ⟨b, hb, hkey⟩
      · exact ⟨c, List.mem_cons_self, heq.symm⟩
      · exact ⟨b, List.mem_cons_of_mem c hb, hkey⟩

/-- Of the items with a key, the first one is kept. -/
theorem find?_dropRepeatsAfter {k : String} (hkept : kept ≠ k) :
    (dropRepeatsAfter key kept items).find? (key · = k) = items.find? (key · = k) := by
  induction items generalizing kept with
  | nil => rfl
  | cons a items ih =>
    rw [dropRepeatsAfter]
    by_cases hka : key a = k
    · rw [if_neg fun h => hkept (h.symm.trans hka)]
      simp only [List.find?_cons, hka, decide_true]
    · split
      · simp only [List.find?_cons, hka, decide_false]
        exact ih hkept
      · simp only [List.find?_cons, hka, decide_false]
        exact ih hka

theorem find?_dropRepeatsBy (key : α → String) (items : List α) (k : String) :
    (dropRepeatsBy key items).find? (key · = k) = items.find? (key · = k) := by
  cases items with
  | nil => rfl
  | cons a items =>
    rw [dropRepeatsBy]
    by_cases hka : key a = k
    · simp only [List.find?_cons, hka, decide_true]
    · simp only [List.find?_cons, hka, decide_false]
      exact find?_dropRepeatsAfter hka

/-! ## Sorting by a key -/

theorem atMost_trans (a b c : String) (hab : atMost a b = true) (hbc : atMost b c = true) :
    atMost a c = true :=
  atMost_iff.mpr ((atMost_iff.mp hab).trans (atMost_iff.mp hbc))

theorem atMost_total (a b : String) : (atMost a b || atMost b a) = true := by
  rw [Bool.or_eq_true, atMost_iff, atMost_iff]
  exact le_total a b

theorem mergeSort_key_pairwise (key : α → String) (items : List α) :
    (items.mergeSort fun a b => atMost (key a) (key b)).Pairwise fun a b => key a ≤ key b := by
  refine (List.pairwise_mergeSort ?_ ?_ items).imp atMost_iff.mp
  · exact fun a b c => atMost_trans (key a) (key b) (key c)
  · exact fun a b => atMost_total (key a) (key b)

/-- Sorting keeps the items with one key in their order. -/
theorem filter_mergeSort (key : α → String) (items : List α) (k : String) :
    (items.mergeSort fun a b => atMost (key a) (key b)).filter (key · = k)
      = items.filter (key · = k) := by
  have hsorted : (items.filter (key · = k)).Pairwise fun a b => atMost (key a) (key b) = true := by
    refine List.pairwise_of_forall_mem_list fun a ha b hb => atMost_iff.mpr (le_of_eq ?_)
    rw [of_decide_eq_true (List.mem_filter.mp ha).2, of_decide_eq_true (List.mem_filter.mp hb).2]
  have hsub := List.sublist_mergeSort (fun a b c => atMost_trans (key a) (key b) (key c))
    (fun a b => atMost_total (key a) (key b)) hsorted List.filter_sublist
  have hfiltered := hsub.filter (key · = k)
  simp only [List.filter_filter, Bool.and_self] at hfiltered
  exact (hfiltered.eq_of_length ((List.mergeSort_perm items _).symm.filter _).length_eq).symm

/-- Items with different keys are sorted in one way only, whatever their order was. -/
theorem mergeSort_eq_of_perm {others : List α} (hkeys : (items.map key).Nodup)
    (hperm : items.Perm others) :
    (items.mergeSort fun a b => atMost (key a) (key b))
      = others.mergeSort fun a b => atMost (key a) (key b) := by
  refine List.Perm.eq_of_pairwise ?_ (mergeSort_key_pairwise key items)
    (mergeSort_key_pairwise key others)
    (((List.mergeSort_perm items _).trans hperm).trans (List.mergeSort_perm others _).symm)
  intro a b ha hb hab hba
  have ha : a ∈ items := List.mem_mergeSort.mp ha
  have hb : b ∈ items := hperm.mem_iff.mpr (List.mem_mergeSort.mp hb)
  exact List.inj_on_of_nodup_map hkeys ha hb (le_antisymm hab hba)

/-! ## Sorted texts -/

theorem mergeSort_pairwise (texts : List String) : (texts.mergeSort atMost).Pairwise (· ≤ ·) :=
  mergeSort_key_pairwise id texts

theorem sortedUnique_pairwise (texts : List String) : (sortedUnique texts).Pairwise (· < ·) :=
  dropRepeatsBy_pairwise (mergeSort_pairwise texts)

theorem mem_sortedUnique {texts : List String} {a : String} :
    a ∈ sortedUnique texts ↔ a ∈ texts := by
  rw [← List.mem_mergeSort (l := texts), sortedUnique]
  refine ⟨fun h => (dropRepeatsBy_sublist id _).subset h, fun h => ?_⟩
  obtain ⟨b, hb, hkey⟩ := exists_mem_dropRepeatsBy id h
  rw [id, id] at hkey
  exact hkey ▸ hb

/-- There is at most one of some texts exactly if all of them are the same. -/
theorem length_sortedUnique_le_one_iff {texts : List String} :
    (sortedUnique texts).length ≤ 1 ↔ ∀ a ∈ texts, ∀ b ∈ texts, a = b := by
  have hpair := sortedUnique_pairwise texts
  simp only [← @mem_sortedUnique texts]
  match h : sortedUnique texts with
  | [] => simp
  | [a] => simp
  | a :: b :: rest =>
    rw [h] at hpair
    have hne : a ≠ b := (List.rel_of_pairwise_cons hpair List.mem_cons_self).ne
    refine iff_of_false (by simp) fun hall => hne ?_
    exact hall a List.mem_cons_self b (List.mem_cons_of_mem a List.mem_cons_self)

end ModuleAtlas.Text
