import Std.Data.TreeMap.Lemmas

/-!
# Values under ascending keys

A `Keyed` value is the ascending list of its entries together with an index for look-ups. The index
is determined by the entries, and looking a key up is the same as finding its entry.
-/

namespace ModuleAtlas

open Std (TreeMap)

/-- Values under texts, in ascending order of the texts. -/
structure Keyed (α : Type) where
  entries : List (String × α)
  index : TreeMap String α
  ascending : entries.Pairwise fun a b => compare a.1 b.1 = .lt
  index_eq : index = TreeMap.ofList entries

namespace Keyed

variable {α β : Type}

/-- The entries of a map in order. -/
def ofMap (map : TreeMap String α) : Keyed α where
  entries := map.toList
  index := TreeMap.ofList map.toList
  ascending := TreeMap.ordered_keys_toList
  index_eq := rfl

/-- The entries of a list; the last one with a key counts. -/
def ofList (entries : List (String × α)) : Keyed α := ofMap (TreeMap.ofList entries)

/-- The keys in ascending order. -/
def keys (k : Keyed α) : List String := k.entries.map (·.1)

/-- The values in ascending order of their keys. -/
def values (k : Keyed α) : List α := k.entries.map (·.2)

/-- The value under a key. -/
def find? (k : Keyed α) (key : String) : Option α := k.index[key]?

/-- Is there a value under the key? -/
def contains (k : Keyed α) (key : String) : Bool := (k.find? key).isSome

/-- Changes every value. -/
def map (f : String → α → β) (k : Keyed α) : Keyed β where
  entries := k.entries.map fun (key, value) => (key, f key value)
  index := TreeMap.ofList (k.entries.map fun (key, value) => (key, f key value))
  ascending := List.pairwise_map.2 k.ascending
  index_eq := rfl

instance : EmptyCollection (Keyed α) := ⟨ofList []⟩

/-- A `Keyed` value is determined by its entries. -/
theorem ext_entries {j k : Keyed α} (h : j.entries = k.entries) : j = k := by
  obtain ⟨_, _, _, rfl⟩ := j
  obtain ⟨_, _, _, rfl⟩ := k
  cases h
  rfl

/-- In a map of entries with different keys, looking up a key finds its entry. -/
theorem getElem?_ofList_eq_some_iff {entries : List (String × α)}
    (distinct : entries.Pairwise fun a b => a.1 ≠ b.1) {key : String} {value : α} :
    (TreeMap.ofList entries)[key]? = some value ↔ (key, value) ∈ entries := by
  have distinct : entries.Pairwise fun a b => ¬ compare a.1 b.1 = .eq :=
    distinct.imp fun h => by simpa using h
  constructor
  · intro h
    by_cases present : (entries.map (·.1)).contains key
    · obtain ⟨entry, member, rfl⟩ : ∃ entry ∈ entries, entry.1 = key := by
        simpa using present
      rw [TreeMap.getElem?_ofList_of_mem (k := entry.1) (v := entry.2) (by simp) distinct member] at h
      cases h
      exact member
    · rw [TreeMap.getElem?_ofList_of_contains_eq_false (by simpa using present)] at h
      cases h
  · intro member
    exact TreeMap.getElem?_ofList_of_mem (by simp) distinct member

/-- Looking up a key finds its entry. -/
theorem find?_eq_some_iff {k : Keyed α} {key : String} {value : α} :
    k.find? key = some value ↔ (key, value) ∈ k.entries := by
  rw [find?, k.index_eq]
  refine getElem?_ofList_eq_some_iff (k.ascending.imp fun hlt heq => ?_)
  rw [heq] at hlt
  simp at hlt

/-- The keys are in ascending order. -/
theorem keys_pairwise (k : Keyed α) : k.keys.Pairwise (· < ·) :=
  List.pairwise_map.2 (k.ascending.imp fun h => compareOfLessAndEq_eq_lt.mp h)

/-- No key occurs twice. -/
theorem keys_nodup (k : Keyed α) : k.keys.Nodup := by
  refine k.keys_pairwise.imp ?_
  rintro a b hlt rfl
  exact String.lt_irrefl a hlt

/-- A key has a value. -/
theorem mem_keys_iff {k : Keyed α} {key : String} :
    key ∈ k.keys ↔ ∃ value, k.find? key = some value := by
  simp [keys, find?_eq_some_iff]

@[simp] theorem find?_ofMap (map : TreeMap String α) (key : String) :
    (ofMap map).find? key = map[key]? := by
  ext value
  rw [find?_eq_some_iff]
  exact TreeMap.mem_toList_iff_getElem?_eq_some

/-- The entries of a list with different keys are those of the list. -/
theorem mem_entries_ofList {entries : List (String × α)}
    (distinct : entries.Pairwise fun a b => a.1 ≠ b.1) {entry : String × α} :
    entry ∈ (ofList entries).entries ↔ entry ∈ entries := by
  have found : (ofList entries).find? entry.1 = some entry.2 ↔ entry ∈ entries := by
    rw [ofList, find?_ofMap]
    exact getElem?_ofList_eq_some_iff distinct
  rw [← found, find?_eq_some_iff]

@[simp] theorem keys_map (f : String → α → β) (k : Keyed α) : (k.map f).keys = k.keys := by
  simp [keys, map]

@[simp] theorem find?_map (f : String → α → β) (k : Keyed α) (key : String) :
    (k.map f).find? key = (k.find? key).map (f key) := by
  ext value
  rw [find?_eq_some_iff, Option.map_eq_some_iff]
  simp only [find?_eq_some_iff, map, List.mem_map, Prod.mk.injEq, Prod.exists]
  constructor
  · rintro ⟨_, old, hmem, rfl, rfl⟩
    exact ⟨old, hmem, rfl⟩
  · rintro ⟨old, hmem, rfl⟩
    exact ⟨key, old, hmem, rfl, rfl⟩

end Keyed

end ModuleAtlas
