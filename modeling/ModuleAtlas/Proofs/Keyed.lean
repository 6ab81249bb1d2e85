import Mathlib.Algebra.BigOperators.Group.List.Basic
import Mathlib.Algebra.GroupWithZero.Nat
import Mathlib.Data.List.Induction
import Mathlib.Data.List.Nodup
import Mathlib.Data.List.Perm.Basic
import ModuleAtlas.Keyed

/-!
# Looking keys up

What keyed values and lists of entries are, is known from what is found in them: keyed values are
equal if the same is found under every key (`Keyed.ext_find?`), and so are the lists of two maps
(`toList_eq_of_getElem?_eq`). Where a key has one value only, looking it up finds that value
(`lookup_eq_some_iff_mem`).
-/

namespace ModuleAtlas

open Std (TreeMap)

variable {α : Type}

namespace Keyed

/-- Keyed values with the same entries are equal. -/
theorem ext_mem {j k : Keyed α} (h : ∀ entry, entry ∈ j.entries ↔ entry ∈ k.entries) : j = k := by
  apply ext_entries
  refine List.Perm.eq_of_pairwise ?_ j.ascending k.ascending ?_
  · intro a b _ _ hab hba
    have hlt : a.1 < b.1 := compareOfLessAndEq_eq_lt.mp hab
    exact absurd (compareOfLessAndEq_eq_lt.mp hba) (String.lt_asymm hlt)
  · exact (List.perm_ext_iff_of_nodup j.keys_nodup.of_map k.keys_nodup.of_map).mpr h

/-- Keyed values with the same value under every key are equal. -/
theorem ext_find? {j k : Keyed α} (h : ∀ key, j.find? key = k.find? key) : j = k := by
  apply ext_mem
  rintro ⟨key, value⟩
  rw [← find?_eq_some_iff, ← find?_eq_some_iff, h key]

/-- What is found under a key is among the entries of which a map was made. -/
theorem mem_of_find?_ofList {entries : List (String × α)} {key : String} {value : α}
    (h : (ofList entries).find? key = some value) : (key, value) ∈ entries := by
  rw [ofList, find?_ofMap, TreeMap.ofList_eq_insertMany_empty] at h
  induction entries using List.reverseRecOn with
  | nil => simp at h
  | append_singleton entries last ih =>
    rw [TreeMap.insertMany_append, TreeMap.insertMany_list_singleton,
      TreeMap.getElem?_insert] at h
    split at h
    · rename_i hkey
      obtain rfl : last.1 = key := Std.LawfulEqCmp.eq_of_compare hkey
      obtain rfl := Option.some.inj h
      simp
    · exact List.mem_append_left _ (ih h)

/-- An entry is the only one under its key. -/
theorem exists_entries_eq {k : Keyed α} {key : String} {value : α} (h : k.find? key = some value) :
    ∃ before after, k.entries = before ++ (key, value) :: after ∧
      ∀ entry ∈ before ++ after, entry.1 ≠ key := by
  obtain ⟨before, after, hsplit⟩ := List.append_of_mem (find?_eq_some_iff.mp h)
  have hkeys : (k.entries.map (·.1)).Nodup := k.keys_nodup
  rw [hsplit, List.map_append, List.map_cons, List.nodup_middle, List.nodup_cons,
    ← List.map_append] at hkeys
  exact ⟨before, after, hsplit, fun entry hentry hkey =>
    hkeys.1 (hkey ▸ List.mem_map_of_mem (f := (·.1)) hentry)⟩

end Keyed

/-! ## Maps -/

/-- What is added under a key that has a value already is not added. -/
theorem insertIfNew_of_mem {map : TreeMap String α} {key : String} (h : key ∈ map) (value : α) :
    map.insertIfNew key value = map := by
  obtain ⟨⟨inner, wf⟩⟩ := map
  have hcontains : @Std.DTreeMap.Internal.Impl.contains _ _ ⟨compare⟩ key inner = true := h
  simp only [TreeMap.insertIfNew, Std.DTreeMap.insertIfNew,
    Std.DTreeMap.Internal.Impl.insertIfNew]
  split
  · rfl
  · rename_i hnot
    exact absurd hcontains hnot

/-- Maps with the same value under every key have the same list of entries. -/
theorem toList_eq_of_getElem?_eq {map other : TreeMap String α}
    (h : ∀ key : String, map[key]? = other[key]?) : map.toList = other.toList :=
  TreeMap.equiv_iff_toList_eq.mp (TreeMap.Equiv.of_forall_constGet?_eq h)

/-- Finding a key in the list of a map is looking it up. -/
theorem lookup_toList (map : TreeMap String α) (key : String) :
    map.toList.lookup key = map[key]? := by
  cases hvalue : map[key]? with
  | none =>
    rw [List.lookup_eq_none_iff]
    intro entry hentry
    rw [bne_iff_ne]
    rintro rfl
    rw [TreeMap.mem_toList_iff_getElem?_eq_some.mp hentry] at hvalue
    cases hvalue
  | some value =>
    -- the first entry with the key is the only one
    have hentry : (key, value) ∈ map.toList := TreeMap.mem_toList_iff_getElem?_eq_some.mpr hvalue
    obtain ⟨before, after, hsplit⟩ := List.append_of_mem hentry
    have hdistinct := map.distinct_keys_toList
    rw [hsplit, List.pairwise_append] at hdistinct
    refine List.lookup_eq_some_iff.mpr ⟨before, after, hsplit, fun entry hbefore => ?_⟩
    rw [bne_iff_ne]
    rintro rfl
    exact hdistinct.2.2 entry hbefore _ List.mem_cons_self Std.ReflCmp.compare_self

/-! ## Lists of entries -/

/-- Where no key occurs twice, the values under a key are the one that is found. -/
theorem sum_filter_eq_lookup {entries : List (String × ℕ)} (hkeys : (entries.map (·.1)).Nodup)
    (key : String) :
    ((entries.filter (·.1 = key)).map (·.2)).sum = (entries.lookup key).getD 0 := by
  induction entries with
  | nil => rfl
  | cons entry entries ih =>
    obtain ⟨first, value⟩ := entry
    obtain ⟨hfirst, hrest⟩ := List.nodup_cons.mp hkeys
    by_cases hkey : first = key
    · have hnone : entries.filter (·.1 = key) = [] := by
        rw [List.filter_eq_nil_iff]
        intro other hother heq
        apply hfirst
        exact List.mem_map.mpr ⟨other, hother, (of_decide_eq_true heq).trans hkey.symm⟩
      simp [hkey, hnone]
    · have hne : (key == first) = false := by simpa using Ne.symm hkey
      simp [List.lookup_cons, hkey, hne, ih hrest]

/-- Where every key has one value only, that is the one which is found. -/
theorem lookup_eq_some_iff_mem {entries : List (String × α)}
    (hunique : ∀ x ∈ entries, ∀ y ∈ entries, x.1 = y.1 → x = y) {key : String} {value : α} :
    entries.lookup key = some value ↔ (key, value) ∈ entries := by
  constructor
  · intro hfound
    obtain ⟨before, after, hsplit, -⟩ := List.lookup_eq_some_iff.mp hfound
    rw [hsplit]
    simp
  · intro hmem
    have hsome : (entries.lookup key).isSome = true := by
      rw [List.lookup_isSome_iff]
      exact ⟨_, hmem, beq_self_eq_true key⟩
    obtain ⟨found, hfound⟩ := Option.isSome_iff_exists.mp hsome
    obtain ⟨before, after, hsplit, -⟩ := List.lookup_eq_some_iff.mp hfound
    have hentry : (key, found) ∈ entries := by
      rw [hsplit]
      simp
    have hsame : found = value := congrArg Prod.snd (hunique _ hentry _ hmem rfl)
    rw [hfound, hsame]

end ModuleAtlas
