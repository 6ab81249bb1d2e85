import ModuleAtlas.Graph.Cycle
import ModuleAtlas.Proofs.Text.Join
import ModuleAtlas.Proofs.Text.Split

/-!
# The path of a cycle

The path of a cycle joins its modules with arrows between blanks. If no name of a module has an arrow
in it, the only arrows in the path are those between modules: the blanks keep a dash at the end of a
name away from what follows. So the path tells the modules (`Cycle.eq_of_path_eq`).
-/

namespace ModuleAtlas

variable {p q t u mid : List Char} {pieces others : List String}

namespace Text

/-! ## Joins with arrows -/

/-- There is an arrow in a text. -/
def HasArrow (text : String) : Prop := "->".toList <:+: text.toList

instance (text : String) : Decidable (HasArrow text) := decidable_of_iff _ contains_iff

/-- What stands between two pieces. -/
def spacedArrow : List Char := [' ', '-', '>', ' ']

/-- Nothing stands between the places of two spaced arrows: the first of them would end in it. -/
theorem eq_nil_of_spacedArrow (hq : ¬ ['-', '>'] <:+: p ++ mid)
    (h : spacedArrow ++ t = mid ++ (spacedArrow ++ u)) : mid = [] := by
  match mid with
  | [] => rfl
  | [_] => simp [spacedArrow] at h
  | [_, _] => simp [spacedArrow] at h
  | c :: d :: e :: mid =>
    simp only [spacedArrow, List.cons_append, List.cons.injEq] at h
    obtain ⟨-, rfl, rfl, -⟩ := h
    exact absurd ⟨p ++ [c], mid, by simp⟩ hq

/-- What stands before the first spaced arrow is determined, and so is the rest. -/
theorem append_spacedArrow_inj (hp : ¬ ['-', '>'] <:+: p) (hq : ¬ ['-', '>'] <:+: q)
    (h : p ++ (spacedArrow ++ t) = q ++ (spacedArrow ++ u)) : p = q ∧ t = u := by
  have hpq : p = q := by
    rcases List.append_eq_append_iff.mp h with ⟨mid, rfl, hmid⟩ | ⟨mid, rfl, hmid⟩
    · rw [eq_nil_of_spacedArrow hq hmid, List.append_nil]
    · rw [eq_nil_of_spacedArrow hp hmid, List.append_nil]
  rw [hpq] at h
  exact ⟨hpq, List.append_cancel_left (List.append_cancel_left h)⟩

/-- Pieces that each have a spaced arrow after them. -/
def chained (pieces : List String) : List Char :=
  pieces.flatMap fun piece => piece.toList ++ spacedArrow

theorem toList_join_append_spacedArrow (hne : pieces ≠ []) :
    (join " -> " pieces).toList ++ spacedArrow = chained pieces := by
  have hsep : " -> ".toList = spacedArrow := by decide
  induction pieces with
  | nil => exact absurd rfl hne
  | cons piece pieces ih =>
    by_cases hmore : pieces = []
    · rw [hmore]
      simp [join, chained]
    · rw [join_cons _ _ hmore, String.toList_append, String.toList_append, List.append_assoc,
        ih hmore, hsep, chained, chained, List.flatMap_cons]

theorem eq_of_chained_eq (hpieces : ∀ piece ∈ pieces, ¬ HasArrow piece)
    (hothers : ∀ piece ∈ others, ¬ HasArrow piece) (h : chained pieces = chained others) :
    pieces = others := by
  induction pieces generalizing others with
  | nil =>
    cases others with
    | nil => rfl
    | cons other others => simp [chained, spacedArrow] at h
  | cons piece pieces ih =>
    cases others with
    | nil => simp [chained, spacedArrow] at h
    | cons other others =>
      obtain ⟨hpiece, hpieces⟩ := List.forall_mem_cons.mp hpieces
      obtain ⟨hother, hothers⟩ := List.forall_mem_cons.mp hothers
      simp only [chained, List.flatMap_cons, List.append_assoc] at h
      obtain ⟨hhead, htail⟩ := append_spacedArrow_inj hpiece hother h
      rw [String.toList_inj.mp hhead, ih hpieces hothers htail]

/-- Pieces without arrows are determined by their join. -/
theorem eq_of_join_eq (hpieces : ∀ piece ∈ pieces, ¬ HasArrow piece)
    (hothers : ∀ piece ∈ others, ¬ HasArrow piece) (hne : pieces ≠ []) (hne' : others ≠ [])
    (h : join " -> " pieces = join " -> " others) : pieces = others := by
  refine eq_of_chained_eq hpieces hothers ?_
  rw [← toList_join_append_spacedArrow hne, ← toList_join_append_spacedArrow hne', h]

end Text

namespace Cycle

variable {c d : Cycle}

theorem path_eq_join (c : Cycle) : c.path = Text.join " -> " (c.modules ++ c.modules.take 1) := by
  obtain ⟨modules⟩ := c
  cases modules <;> rfl

/-- Only a cycle without modules has an empty path. -/
theorem path_eq_empty_iff : c.path = "" ↔ c.modules = [] := by
  obtain ⟨modules⟩ := c
  cases modules with
  | nil => simp [path, closed, Text.join]
  | cons first rest =>
    -- the first module is there twice, with an arrow after it
    rw [path_eq_join, List.cons_append, Text.join_cons _ _ (by simp)]
    simp

/-- The path of a cycle tells its modules, if no name of a module has an arrow in it. -/
theorem eq_of_path_eq (hc : ∀ module ∈ c.modules, ¬ Text.HasArrow module)
    (hd : ∀ module ∈ d.modules, ¬ Text.HasArrow module) (h : c.path = d.path) : c = d := by
  have hempty : c.modules = [] ↔ d.modules = [] := by
    rw [← path_eq_empty_iff, h, path_eq_empty_iff]
  obtain ⟨modules⟩ := c
  obtain ⟨modules'⟩ := d
  congr 1
  by_cases hnil : modules = []
  · exact hnil.trans (hempty.mp hnil).symm
  · have hnil' : modules' ≠ [] := fun h' => hnil (hempty.mpr h')
    rw [path_eq_join, path_eq_join] at h
    have hclosed : modules ++ modules.take 1 = modules' ++ modules'.take 1 := by
      refine Text.eq_of_join_eq (List.forall_mem_append.mpr ⟨hc, ?_⟩)
        (List.forall_mem_append.mpr ⟨hd, ?_⟩) (by simp [hnil]) (by simp [hnil']) h
      · exact fun module hmodule => hc module (List.mem_of_mem_take hmodule)
      · exact fun module hmodule => hd module (List.mem_of_mem_take hmodule)
    -- the repeated module is one on either side
    have hlength : ∀ {list : List String}, list ≠ [] → (list.take 1).length = 1 := by
      intro list hne
      have hpos := List.length_pos_of_ne_nil hne
      rw [List.length_take]
      omega
    exact (List.append_inj' hclosed (by rw [hlength hnil, hlength hnil'])).1

/-- A name with an arrow in it looks like two modules. -/
example : path ⟨["a -> a"]⟩ = path ⟨["a", "a", "a"]⟩ := by decide

end Cycle

end ModuleAtlas
