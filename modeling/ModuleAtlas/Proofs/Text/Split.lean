import Mathlib.Data.List.Infix
import ModuleAtlas.Text.Split

/-!
# Fronts and ends of texts

Stripping the front of a text is the inverse of putting it there (`stripFront?_eq_some_iff`). The
tests for a front, an end and a part of a text are `<+:`, `<:+` and `<:+:` on characters
(`contains_iff`). Whether a text ends with another one is decided after the last separator, if the
other one has none (`endsWith_after`).
-/

namespace ModuleAtlas.Text

/-- A run of characters, or of lines, ends where the next one is of another kind. -/
theorem takeWhile_run {α : Type} {p : α → Bool} {run rest : List α} (hrun : ∀ c ∈ run, p c = true)
    (hrest : ∀ c ∈ rest.head?, p c = false) :
    (run ++ rest).takeWhile p = run ∧ (run ++ rest).dropWhile p = rest := by
  rw [List.takeWhile_append_of_pos hrun, List.dropWhile_append_of_pos hrun]
  cases rest with
  | nil => simp
  | cons c rest =>
    have hc : p c = false := hrest c rfl
    simp [hc]

theorem dropFront?_eq_some_iff {first chars rest : List Char} :
    dropFront? first chars = some rest ↔ chars = first ++ rest := by
  induction first generalizing chars with
  | nil => rw [dropFront?, Option.some.injEq, List.nil_append]
  | cons a first ih =>
    cases chars with
    | nil => simp [dropFront?]
    | cons b chars =>
      simp only [dropFront?, List.cons_append, List.cons.injEq]
      by_cases hab : a = b
      · simp [hab, ih]
      · simp [hab, Ne.symm hab]

theorem stripFront?_eq_some_iff {first text rest : String} :
    stripFront? first text = some rest ↔ text = first ++ rest := by
  rw [stripFront?, Option.map_eq_some_iff]
  constructor
  · rintro ⟨chars, hchars, rfl⟩
    apply String.toList_inj.mp
    rw [String.toList_append, String.toList_ofList]
    exact dropFront?_eq_some_iff.mp hchars
  · rintro rfl
    refine ⟨rest.toList, ?_, String.ofList_toList⟩
    exact dropFront?_eq_some_iff.mpr String.toList_append

theorem isSome_dropFront?_iff {first chars : List Char} :
    (dropFront? first chars).isSome = true ↔ first <+: chars := by
  rw [Option.isSome_iff_exists]
  refine exists_congr fun rest => ?_
  rw [dropFront?_eq_some_iff, eq_comm]

theorem startsWith_iff {first text : String} :
    startsWith first text = true ↔ first.toList <+: text.toList := isSome_dropFront?_iff

theorem endsWith_iff {last text : String} :
    endsWith last text = true ↔ last.toList <:+ text.toList := by
  rw [endsWith, isSome_dropFront?_iff, List.reverse_prefix]

theorem contains_iff {part text : String} :
    contains part text = true ↔ part.toList <:+: text.toList := by
  have hchars : ∀ chars : List Char, occursIn part.toList chars = true ↔ part.toList <:+: chars := by
    intro chars
    induction chars with
    | nil => rw [occursIn, List.isEmpty_iff, List.infix_nil]
    | cons c chars ih =>
      rw [occursIn, Bool.or_eq_true, ih, List.infix_cons_iff, isSome_dropFront?_iff]
  exact hchars text.toList

/-- What stands before a separator does not matter for the end of a text. -/
theorem endsWith_after {last : String} {sep : Char} (hsep : sep ∉ last.toList)
    (before after : String) :
    endsWith last (before ++ String.singleton sep ++ after) = endsWith last after := by
  have htext : (before ++ String.singleton sep ++ after).toList
      = before.toList ++ [sep] ++ after.toList := by
    simp
  rw [Bool.eq_iff_iff, endsWith_iff, endsWith_iff, htext]
  constructor
  · intro hend
    rcases List.suffix_or_suffix_of_suffix hend (List.suffix_append _ after.toList) with
      hshort | ⟨rest, hlong⟩
    · exact hshort
    · -- a longer end would reach back to the separator
      rw [← hlong] at hend hsep ⊢
      obtain ⟨front, hfront⟩ := hend
      rw [← List.append_assoc] at hfront
      have hrest : front ++ rest = before.toList ++ [sep] := List.append_cancel_right hfront
      cases rest using List.reverseRecOn with
      | nil => exact List.suffix_refl _
      | append_singleton rest last =>
        rw [← List.append_assoc] at hrest
        have hlast := (List.append_inj' hrest rfl).2
        rw [List.singleton_inj] at hlast
        exact absurd (by simp [hlast]) hsep
  · intro hend
    exact hend.trans (List.suffix_append _ after.toList)

end ModuleAtlas.Text
