import Mathlib.Data.List.Nodup
import Mathlib.Data.Set.Insert
import Mathlib.Logic.Relation
import ModuleAtlas.Graph.Walk

/-!
# Explorations

An exploration lists what some starting points reach along a successor function, without entering a
set that was explored before. The laws here do not depend on the order of the list, so that they
serve walks with a queue and listings with a stack alike. An exploration with nothing before it
lists exactly what its starts reach (`Explores.mem_iff`).
-/

namespace ModuleAtlas

open Relation (ReflTransGen)

/-- One step along a successor function. -/
def Leads (next : String → List String) (a b : String) : Prop := b ∈ next a

/-- A set that holds the successors of its members holds all that they reach. -/
theorem mem_of_reaches {next : String → List String} {ids : List String}
    (hids : ∀ x ∈ ids, ∀ y ∈ next x, y ∈ ids) {a b : String}
    (hpath : ReflTransGen (Leads next) a b) (ha : a ∈ ids) : b ∈ ids := by
  induction hpath with
  | refl => exact ha
  | tail _ hstep ih => exact hids _ ih _ hstep

/-- `visits` lists, each once, what `starts` reach without entering `before`. -/
structure Explores (next : String → List String) (starts : List String) (before : Set String)
    (visits : List String) : Prop where
  nodup : visits.Nodup
  fresh : ∀ x ∈ visits, x ∉ before
  covers : ∀ x ∈ starts, x ∈ before ∨ x ∈ visits
  closed : ∀ x ∈ visits, ∀ y ∈ next x, y ∈ before ∨ y ∈ visits
  sound : ∀ x ∈ visits, ∃ s ∈ starts, ReflTransGen (Leads next) s x

namespace Explores

variable {next : String → List String} {starts starts' visits visits' : List String}
  {before : Set String} {id : String}

/-- Without starts there is nothing to list. -/
theorem nil : Explores next [] before [] where
  nodup := List.nodup_nil
  fresh := by simp
  covers := by simp
  closed := by simp
  sound := by simp

/-- More starts change nothing as long as they were explored before or are among the old ones. -/
theorem of_starts (h : Explores next starts before visits) (hsub : ∀ x ∈ starts, x ∈ starts')
    (hcover : ∀ x ∈ starts', x ∈ before ∨ x ∈ starts) : Explores next starts' before visits where
  nodup := h.nodup
  fresh := h.fresh
  covers := by
    intro x hx
    rcases hcover x hx with hb | hs
    · exact Or.inl hb
    · exact h.covers x hs
  closed := h.closed
  sound := by
    intro x hx
    obtain ⟨s, hs, hpath⟩ := h.sound x hx
    exact ⟨s, hsub s hs, hpath⟩

/-- A start that was explored before is passed over. -/
theorem skip (h : Explores next starts before visits) (hid : id ∈ before) :
    Explores next (id :: starts) before visits := by
  refine h.of_starts (fun x hx => List.mem_cons_of_mem id hx) ?_
  intro x hx
  rcases List.mem_cons.mp hx with rfl | hx
  · exact Or.inl hid
  · exact Or.inr hx

private theorem listed_cons {x : String} (hx : x ∈ insert id before ∨ x ∈ visits) :
    x ∈ before ∨ x ∈ id :: visits := by
  rcases hx with (rfl | hb) | hv
  · exact Or.inr List.mem_cons_self
  · exact Or.inl hb
  · exact Or.inr (List.mem_cons_of_mem id hv)

/-- A new start is listed, and its successors become starts. -/
theorem cons (h : Explores next (next id ++ starts) (insert id before) visits) (hid : id ∉ before) :
    Explores next (id :: starts) before (id :: visits) where
  nodup := List.nodup_cons.mpr ⟨fun hmem => h.fresh id hmem (Set.mem_insert id before), h.nodup⟩
  fresh := by
    intro x hx
    rcases List.mem_cons.mp hx with rfl | hx
    · exact hid
    · exact fun hb => h.fresh x hx (Set.mem_insert_of_mem id hb)
  covers := by
    intro x hx
    rcases List.mem_cons.mp hx with rfl | hx
    · exact Or.inr List.mem_cons_self
    · exact listed_cons (h.covers x (List.mem_append_right _ hx))
  closed := by
    intro x hx y hy
    rcases List.mem_cons.mp hx with rfl | hx
    · exact listed_cons (h.covers y (List.mem_append_left _ hy))
    · exact listed_cons (h.closed x hx y hy)
  sound := by
    intro x hx
    rcases List.mem_cons.mp hx with rfl | hx
    · exact ⟨x, List.mem_cons_self, .refl⟩
    · obtain ⟨s, hs, hpath⟩ := h.sound x hx
      rcases List.mem_append.mp hs with hs | hs
      · exact ⟨id, List.mem_cons_self, hpath.head hs⟩
      · exact ⟨s, List.mem_cons_of_mem id hs, hpath⟩

private theorem listed_append {x : String} (hx : x ∈ before ∪ {y | y ∈ visits} ∨ x ∈ visits') :
    x ∈ before ∨ x ∈ visits ++ visits' := by
  rcases hx with (hb | hv) | hv
  · exact Or.inl hb
  · exact Or.inr (List.mem_append_left _ hv)
  · exact Or.inr (List.mem_append_right _ hv)

/-- Two explorations one after the other are one. -/
theorem append (h : Explores next starts before visits)
    (h' : Explores next starts' (before ∪ {y | y ∈ visits}) visits') :
    Explores next (starts ++ starts') before (visits ++ visits') where
  nodup := by
    refine List.nodup_append'.mpr ⟨h.nodup, h'.nodup, ?_⟩
    exact fun x hx hx' => h'.fresh x hx' (Or.inr hx)
  fresh := by
    intro x hx
    rcases List.mem_append.mp hx with hx | hx
    · exact h.fresh x hx
    · exact fun hb => h'.fresh x hx (Or.inl hb)
  covers := by
    intro x hx
    rcases List.mem_append.mp hx with hx | hx
    · exact (h.covers x hx).imp_right (List.mem_append_left _)
    · exact listed_append (h'.covers x hx)
  closed := by
    intro x hx y hy
    rcases List.mem_append.mp hx with hx | hx
    · exact (h.closed x hx y hy).imp_right (List.mem_append_left _)
    · exact listed_append (h'.closed x hx y hy)
  sound := by
    intro x hx
    rcases List.mem_append.mp hx with hx | hx
    · obtain ⟨s, hs, hpath⟩ := h.sound x hx
      exact ⟨s, List.mem_append_left _ hs, hpath⟩
    · obtain ⟨s, hs, hpath⟩ := h'.sound x hx
      exact ⟨s, List.mem_append_right _ hs, hpath⟩

/-- An exploration with nothing before it lists exactly what its starts reach. -/
theorem mem_iff (h : Explores next starts ∅ visits) {x : String} :
    x ∈ visits ↔ ∃ s ∈ starts, ReflTransGen (Leads next) s x := by
  refine ⟨h.sound x, ?_⟩
  rintro ⟨s, hs, hpath⟩
  induction hpath with
  | refl => exact (h.covers s hs).resolve_left (Set.notMem_empty s)
  | tail _ hstep ih => exact (h.closed _ ih _ hstep).resolve_left (Set.notMem_empty _)

/-- An exploration stays in every set that holds its starts and their successors. -/
theorem subset (h : Explores next starts before visits) {ids : List String}
    (hids : ∀ x ∈ ids, ∀ y ∈ next x, y ∈ ids) (hstarts : ∀ s ∈ starts, s ∈ ids) :
    ∀ x ∈ visits, x ∈ ids := by
  intro x hx
  obtain ⟨s, hs, hpath⟩ := h.sound x hx
  exact mem_of_reaches hids hpath (hstarts s hs)

end Explores

end ModuleAtlas
