import Mathlib.Data.List.Induction
import Mathlib.Data.Nat.Basic
import Mathlib.Order.Basic
import ModuleAtlas.Metrics.Summary

/-!
# The first of the largest

A summary goes through its items once and keeps the best one so far until there is a better one, so
it ends at the first of the largest (`firstOfLargest_firstMax`). Nothing is named if all counts are
zero.
-/

namespace ModuleAtlas

variable {β : Type} {values : List (β × ℕ)} {max : ℕ} {label : Option β}

/-- A maximum of labelled counts, with the label of the first count that is as large, unless all
counts are zero. -/
structure FirstOfLargest (values : List (β × ℕ)) (max : ℕ) (label : Option β) : Prop where
  le : ∀ value ∈ values, value.2 ≤ max
  named : 0 < max → ∃ name before after, label = some name ∧
    values = before ++ (name, max) :: after ∧ ∀ value ∈ before, value.2 < max
  unnamed : max = 0 → label = none

namespace FirstOfLargest

theorem pos_iff (h : FirstOfLargest values max label) : 0 < max ↔ ∃ value ∈ values, 0 < value.2 := by
  constructor
  · intro hpos
    obtain ⟨name, before, after, -, hvalues, -⟩ := h.named hpos
    exact ⟨(name, max), by simp [hvalues], hpos⟩
  · rintro ⟨value, hvalue, hpos⟩
    exact hpos.trans_le (h.le value hvalue)

theorem isSome_iff (h : FirstOfLargest values max label) : label.isSome = true ↔ 0 < max := by
  constructor
  · intro hsome
    by_contra hzero
    rw [h.unnamed (Nat.eq_zero_of_not_pos hzero)] at hsome
    cases hsome
  · intro hpos
    obtain ⟨name, before, after, hlabel, -⟩ := h.named hpos
    exact hlabel ▸ rfl

theorem eq_none_iff (h : FirstOfLargest values max label) :
    label = none ↔ ∀ value ∈ values, value.2 = 0 := by
  rw [← Option.not_isSome_iff_eq_none, h.isSome_iff, h.pos_iff]
  simp

/-- After a larger count nothing is left of what was before. -/
theorem concat_of_lt (h : FirstOfLargest values max label) {next : β × ℕ} (hlt : max < next.2) :
    FirstOfLargest (values ++ [next]) next.2 (some next.1) := by
  have hbefore : ∀ value ∈ values, value.2 < next.2 :=
    fun value hvalue => (h.le value hvalue).trans_lt hlt
  refine ⟨?_, fun _ => ⟨next.1, values, [], rfl, rfl, hbefore⟩, fun hzero => by omega⟩
  rw [List.forall_mem_append, List.forall_mem_singleton]
  exact ⟨fun value hvalue => (hbefore value hvalue).le, le_refl _⟩

/-- A count that is not larger makes no difference. -/
theorem concat_of_le (h : FirstOfLargest values max label) {next : β × ℕ} (hle : next.2 ≤ max) :
    FirstOfLargest (values ++ [next]) max label := by
  refine ⟨?_, fun hpos => ?_, h.unnamed⟩
  · rw [List.forall_mem_append, List.forall_mem_singleton]
    exact ⟨h.le, hle⟩
  · obtain ⟨name, before, after, hlabel, hvalues, hbefore⟩ := h.named hpos
    refine ⟨name, before, after ++ [next], hlabel, ?_, hbefore⟩
    rw [hvalues, List.append_assoc, List.cons_append]

end FirstOfLargest

/-- The better of the best value so far and the next one. -/
def better (best : ℕ × Option β) (next : β × ℕ) : ℕ × Option β :=
  if best.1 < next.2 then (next.2, some next.1) else best

theorem firstMax_concat (values : List (β × ℕ)) (next : β × ℕ) :
    firstMax (values ++ [next]) = better (firstMax values) next :=
  List.foldl_append

/-- Keeping the best item until there is a better one ends at the first of the largest. -/
theorem firstOfLargest_firstMax (values : List (β × ℕ)) :
    FirstOfLargest values (firstMax values).1 (firstMax values).2 := by
  induction values using List.reverseRecOn with
  | nil => exact ⟨by simp, fun h => absurd h (Nat.lt_irrefl 0), fun _ => rfl⟩
  | append_singleton values next ih =>
    rw [firstMax_concat, better]
    split
    · exact ih.concat_of_lt ‹_›
    · exact ih.concat_of_le (Nat.not_lt.mp ‹_›)

/-- Where no value is positive, there is no first one with the maximum. -/
theorem firstMax_snd_eq_none (h : (firstMax values).1 = 0) : (firstMax values).2 = none :=
  (firstOfLargest_firstMax values).unnamed h

/-- A label is named exactly if the maximum is positive. -/
theorem isSome_firstMax_iff : (firstMax values).2.isSome = true ↔ 0 < (firstMax values).1 :=
  (firstOfLargest_firstMax values).isSome_iff

/-- The largest of some counts without labels, or zero, is at least each of them. -/
theorem foldl_max_spec (counts : List ℕ) :
    (∀ count ∈ counts, count ≤ counts.foldl Nat.max 0) ∧
      (0 < counts.foldl Nat.max 0 → counts.foldl Nat.max 0 ∈ counts) := by
  induction counts using List.reverseRecOn with
  | nil => exact ⟨by simp, fun h => absurd h (Nat.lt_irrefl 0)⟩
  | append_singleton counts next ih =>
    obtain ⟨hle, hmem⟩ := ih
    rw [List.foldl_append, List.foldl_cons, List.foldl_nil]
    generalize counts.foldl Nat.max 0 = largest at hle hmem
    have hmax : largest.max next = if largest ≤ next then next else largest := rfl
    rw [hmax, List.forall_mem_append, List.forall_mem_singleton]
    split
    · exact ⟨⟨fun count hcount => (hle count hcount).trans ‹_›, le_refl next⟩, fun _ => by simp⟩
    · exact ⟨⟨hle, by omega⟩, fun hpos => List.mem_append_left _ (hmem hpos)⟩

end ModuleAtlas
