import Mathlib.Data.Set.Finite.List
import Mathlib.Order.WellFoundedSet
import ModuleAtlas.Proofs.EntryPoint
import ModuleAtlas.Proofs.Graph.Cycle

/-!
# Why a module at the root is unreachable

A module at the root is an entry point unless another module imports it, so an unreachable one has an
importer other than itself, and that importer is unreachable as well (`exists_importer`). The way back
from importer to importer cannot go on for ever in a finite graph. It comes to a module below the root
or goes round a cycle of several modules (`exists_cause`). A module that imports only itself is no
such cause: it is an entry point.
-/

namespace ModuleAtlas.Graph

open Relation (ReflTransGen TransGen)

variable {g : Graph} {configured : List String} {id a b : String}

/-! ## The way back -/

/-- Whatever leads to an unreachable module is unreachable. -/
theorem mem_unreachable_of_reaches (hg : g.Closed) (hreaches : g.Reaches a b)
    (hb : b ∈ g.unreachable configured) : a ∈ g.unreachable configured := by
  rw [mem_unreachable hg] at hb ⊢
  refine ⟨hg.mem_left hreaches, ?_⟩
  rintro ⟨seed, hseed, hpath⟩
  exact hb.2 ⟨seed, hseed, hpath.trans hreaches.to_reflTransGen⟩

/-- An unreachable module at the root is imported by another one, which is unreachable too. -/
theorem exists_importer (hg : g.Closed) (hid : id ∈ g.unreachable configured)
    (hdepth : Path.depth id = 0) :
    ∃ importer ∈ g.unreachable configured, importer ≠ id ∧ g.Edge importer id := by
  obtain ⟨hmem, hnone⟩ := (mem_unreachable hg).mp hid
  by_contra hno
  -- otherwise it is a seed
  apply hnone
  refine ⟨id, ⟨hmem, Or.inr (Or.inr ⟨hdepth, fun importer hedge => ?_⟩)⟩, .refl⟩
  by_contra hne
  exact hno ⟨importer, mem_unreachable_of_reaches hg (.single hedge) hid, hne, hedge⟩

/-- `a` leads to `b`, and no way leads back. -/
def Precedes (g : Graph) (a b : String) : Prop := g.Reaches a b ∧ ¬ g.Reaches b a

instance : IsStrictOrder String g.Precedes where
  irrefl _ h := h.2 h.1
  trans _ _ _ h h' := ⟨h.1.trans h'.1, fun hback => h'.2 (hback.trans h.1)⟩

/-- There is no endless way back among the modules of a graph without going round. -/
theorem wellFoundedOn_precedes (g : Graph) : {x | x ∈ g.ids}.WellFoundedOn g.Precedes :=
  (List.finite_toSet g.ids).wellFoundedOn

/-- Before an unreachable module at the root stands one below the root, or two that reach each other.
-/
theorem exists_deep_or_mutual (hg : g.Closed) (hid : id ∈ g.unreachable configured)
    (hdepth : Path.depth id = 0) :
    (∃ a ∈ g.unreachable configured, 1 ≤ Path.depth a ∧ g.Reaches a id) ∨
    ∃ a b, a ≠ b ∧ g.Mutual a b ∧ g.Reaches a id := by
  have hmem : id ∈ {x | x ∈ g.ids} := ((mem_unreachable hg).mp hid).1
  revert hid hdepth
  apply (wellFoundedOn_precedes g).induction hmem
  intro id _ ih hid hdepth
  obtain ⟨importer, himporter, hne, hedge⟩ := exists_importer hg hid hdepth
  by_cases hdeep : 1 ≤ Path.depth importer
  · exact Or.inl ⟨importer, himporter, hdeep, .single hedge⟩
  · by_cases hback : g.Reaches id importer
    · exact Or.inr ⟨importer, id, hne, ⟨.single hedge, hback⟩, .single hedge⟩
    · -- the importer is at the root as well, and no way leads back to it
      have hroot : Path.depth importer = 0 := by omega
      rcases ih importer (hg hedge).1 ⟨.single hedge, hback⟩ himporter hroot with
        ⟨a, ha, hdeep, hreaches⟩ | ⟨a, b, hab, hmut, hreaches⟩
      · exact Or.inl ⟨a, ha, hdeep, hreaches.tail hedge⟩
      · exact Or.inr ⟨a, b, hab, hmut, hreaches.tail hedge⟩

/-! ## The causes -/

/-- An unreachable module at the root is led to by an unreachable module below the root, or by each
module of a cycle of several modules, all of them unreachable. -/
theorem exists_cause (hg : g.Closed) (hid : id ∈ g.unreachable configured)
    (hdepth : Path.depth id = 0) :
    (∃ a ∈ g.unreachable configured, 1 ≤ Path.depth a ∧ g.Reaches a id) ∨
    ∃ c ∈ g.cycles, 2 ≤ c.modules.length ∧
      ∀ a ∈ c.modules, a ∈ g.unreachable configured ∧ g.Reaches a id := by
  rcases exists_deep_or_mutual hg hid hdepth with hdeep | ⟨a, b, hab, hmut, hreaches⟩
  · exact Or.inl hdeep
  · right
    obtain ⟨c, hc, ha, hb⟩ := ((listsComponents_cycles hg).together_iff a b hab).mpr hmut
    refine ⟨c, hc, ?_, fun x hx => ?_⟩
    · have hpair : [a, b] ⊆ c.modules := by simp [ha, hb]
      have hnodup : [a, b].Nodup := by simp [hab]
      exact (hnodup.subperm hpair).length_le
    · have hlead : g.Reaches x id := (mutual_of_mem_cycles hg hc hx ha).1.trans hreaches
      exact ⟨mem_unreachable_of_reaches hg hlead hid, hlead⟩

/-- In whatever way a graph was built and whatever is configured, a module at the root is unreachable
only because of an unreachable module below the root or a cycle of several unreachable modules, which
lead to it. If all modules are at the root and no cycle has more than one, all are reachable. -/
theorem causes_ofCalls (calls : List GraphBuilder.Call) (configured : List String) :
    let g := ofCalls calls
    (∀ id ∈ g.unreachable configured, Path.depth id = 0 →
      (∃ a ∈ g.unreachable configured, 1 ≤ Path.depth a ∧ g.Reaches a id) ∨
      ∃ c ∈ g.cycles, 2 ≤ c.modules.length ∧
        ∀ a ∈ c.modules, a ∈ g.unreachable configured ∧ g.Reaches a id) ∧
    ((∀ id ∈ g.ids, Path.depth id = 0) → (∀ c ∈ g.cycles, c.isSelfLoop = true) →
      g.unreachable configured = []) := by
  intro g
  have hg : g.Closed := closed_ofCalls calls
  refine ⟨fun id hid hdepth => exists_cause hg hid hdepth, fun hflat hloops => ?_⟩
  rw [List.eq_nil_iff_forall_not_mem]
  intro id hid
  have hids : ∀ a ∈ g.unreachable configured, a ∈ g.ids := fun a ha => ((mem_unreachable hg).mp ha).1
  rcases exists_cause hg hid (hflat id (hids id hid)) with ⟨a, ha, hdeep, -⟩ | ⟨c, hc, hlength, -⟩
  · have hroot := hflat a (hids a ha)
    omega
  · have hloop : c.modules.length = 1 := by simpa [Cycle.isSelfLoop] using hloops c hc
    omega

/-- Two modules at the root that import each other and a third one, and a module below the root that
imports a fourth one. -/
def tangledCalls : List GraphBuilder.Call :=
  ["one.py", "two.py", "three.py", "four.py", "lib/util.py"].map (.addModule · .python) ++
    [.addImport "one.py" "two.py", .addImport "two.py" "one.py", .addImport "two.py" "three.py",
      .addImport "lib/util.py" "four.py"]

/-- A module that imports itself and another one. -/
def loopCalls : List GraphBuilder.Call :=
  ["loop.py", "next.py"].map (.addModule · .python) ++
    [.addImport "loop.py" "loop.py", .addImport "loop.py" "next.py"]

/-- Nothing in the first graph is reachable, for one reason or the other, and all of the second is. -/
theorem causes_tangledCalls :
    (ofCalls tangledCalls).unreachable []
      = ["four.py", "lib/util.py", "one.py", "three.py", "two.py"] ∧
    (ofCalls tangledCalls).cycles = [⟨["one.py", "two.py"]⟩] ∧
    (∀ id ∈ (ofCalls tangledCalls).unreachable [], Path.depth id = 0 →
      (∃ a ∈ (ofCalls tangledCalls).unreachable [],
        1 ≤ Path.depth a ∧ (ofCalls tangledCalls).Reaches a id) ∨
      ∃ c ∈ (ofCalls tangledCalls).cycles, 2 ≤ c.modules.length ∧ ∀ a ∈ c.modules,
        a ∈ (ofCalls tangledCalls).unreachable [] ∧ (ofCalls tangledCalls).Reaches a id) ∧
    (ofCalls loopCalls).cycles = [⟨["loop.py"]⟩] ∧ (ofCalls loopCalls).unreachable [] = [] := by
  have hcycles : (ofCalls loopCalls).cycles = [⟨["loop.py"]⟩] := by decide +kernel
  have hflat : ∀ id ∈ (ofCalls loopCalls).ids, Path.depth id = 0 := by decide +kernel
  have hloops : ∀ c ∈ (ofCalls loopCalls).cycles, c.isSelfLoop = true := by
    rw [hcycles]
    decide
  refine ⟨by decide +kernel, by decide +kernel, (causes_ofCalls tangledCalls []).1, hcycles, ?_⟩
  exact (causes_ofCalls loopCalls []).2 hflat hloops

end ModuleAtlas.Graph
