import Mathlib.Algebra.BigOperators.Group.List.Basic
import Mathlib.Algebra.Field.Rat
import ModuleAtlas.Metrics.Summary

/-!
# Merging metrics

The counts of several projects add up and their lists are appended, whatever averages are. The
metrics of a project without modules change nothing when they are merged before or after others, if
averages are exact quotients and the others are regular: what is taken over nothing is zero, and
nobody attains a maximum of zero (`Regular.merge_empty`, `Regular.empty_merge`). All metrics that are
computed are regular.

No field but the averages depends on how averages are represented. `Metrics.withoutAverages` keeps
those other fields.
-/

namespace ModuleAtlas

/-! ## Exact averages -/

/-- Averages as exact quotients. -/
instance : Average ℚ where
  zero := 0
  quotient sum count := sum / count
  combine a m b n total := (a * m + b * n) / total

/-- Averages that are left out. -/
instance : Average Unit where
  zero := ()
  quotient _ _ := ()
  combine _ _ _ _ _ := ()

/-- Averages to which an average over nothing can be added without changing them. -/
class LawfulAverage (α : Type) [Average α] : Prop where
  combine_zero_right : ∀ (a : α) {m : ℕ}, m ≠ 0 → Average.combine a m Average.zero 0 m = a
  combine_zero_left : ∀ (a : α) {m : ℕ}, m ≠ 0 → Average.combine Average.zero 0 a m m = a

instance : LawfulAverage ℚ where
  combine_zero_right := by
    intro a m hm
    have hm : (m : ℚ) ≠ 0 := Nat.cast_ne_zero.mpr hm
    change (a * m + 0 * ((0 : ℕ) : ℚ)) / m = a
    rw [zero_mul, add_zero, mul_div_cancel_right₀ a hm]
  combine_zero_left := by
    intro a m hm
    have hm : (m : ℚ) ≠ 0 := Nat.cast_ne_zero.mpr hm
    change (0 * ((0 : ℕ) : ℚ) + a * m) / m = a
    rw [zero_mul, zero_add, mul_div_cancel_right₀ a hm]

instance : LawfulAverage Unit where
  combine_zero_right _ _ _ := rfl
  combine_zero_left _ _ _ := rfl

section Averages

variable {α : Type} [Average α]

theorem Average.mean_zero (sum : ℕ) : (Average.mean sum 0 : α) = Average.zero := if_pos rfl

theorem Average.weighted_of_add_eq_zero {m n : ℕ} (a b : α) (h : m + n = 0) :
    Average.weighted a m b n = Average.zero := if_pos h

variable [LawfulAverage α]

/-- An average over nothing adds nothing to another one. -/
theorem Average.weighted_zero_right {a : α} {m : ℕ} (h : m = 0 → a = Average.zero) :
    Average.weighted a m Average.zero 0 = a := by
  unfold Average.weighted
  rw [Nat.add_zero]
  split
  · rename_i hm
    exact (h hm).symm
  · rename_i hm
    exact LawfulAverage.combine_zero_right a hm

theorem Average.weighted_zero_left {a : α} {m : ℕ} (h : m = 0 → a = Average.zero) :
    Average.weighted Average.zero 0 a m = a := by
  unfold Average.weighted
  rw [Nat.zero_add]
  split
  · rename_i hm
    exact (h hm).symm
  · rename_i hm
    exact LawfulAverage.combine_zero_left a hm

end Averages

namespace Metrics

variable {α β ι : Type} [Average α] {m n : Metrics α} {all : List (Metrics α)}

/-! ## Paths -/

omit [Average α] in
theorem mapPaths_id (m : Metrics α) : m.mapPaths id = m := by
  simp [mapPaths]

omit [Average α] in
/-- Metrics are put below a root like their paths. -/
theorem below_eq_mapPaths (root : String) (m : Metrics α) :
    m.below root = m.mapPaths (Path.under root) := by
  unfold below
  split
  · rename_i hroot
    have hunder : Path.under root = id := funext fun path => if_pos hroot
    rw [hunder, mapPaths_id]
  · rename_i hroot
    have hunder : Path.under root = fun path => root ++ "/" ++ path :=
      funext fun path => if_neg hroot
    rw [hunder]

/-! ## Counts and lists -/

/-- What a merge combines by an associative operation is combined over all projects in their order.
Counts are added up, and lists are appended. -/
theorem foldr_mergeAll {op : β → β → β} {unit : β} [Std.Associative op] [Std.LawfulIdentity op unit]
    (field : Metrics α → β) (hempty : field empty = unit)
    (hmerge : ∀ m n, field (m.merge n) = op (field m) (field n)) (all : List (Metrics α)) :
    field (mergeAll all) = (all.map field).foldr op unit := by
  have hassoc : ∀ a b c, op (op a b) c = op a (op b c) := Std.Associative.assoc
  have hunit : ∀ a, op a unit = a := Std.LawfulRightIdentity.right_id
  have hfold : ∀ (rest : List (Metrics α)) (first : Metrics α),
      field (rest.foldl merge first) = op (field first) ((rest.map field).foldr op unit) := by
    intro rest
    induction rest with
    | nil => exact fun first => (hunit _).symm
    | cons next rest ih =>
      intro first
      rw [List.foldl_cons, ih, hmerge, List.map_cons, List.foldr_cons, hassoc]
  cases all with
  | nil => exact hempty
  | cons first rest =>
    rw [List.map_cons, List.foldr_cons]
    exact hfold rest first

/-! ## Regular metrics -/

/-- An average over nothing is zero, and nobody attains a maximum of zero. -/
structure Regular (m : Metrics α) : Prop where
  depth : m.moduleCount = 0 → m.depth.average = Average.zero
  fanout : m.moduleCount = 0 → m.fanout.average = Average.zero
  complexity : m.complexity.relativeImports = 0 → m.complexity.average = Average.zero
  coupling : m.moduleCount = 0 → m.coupling.averageEfferent = Average.zero
  fanoutModule : m.fanout.max = 0 → m.fanout.maxModule = none
  complexityImport : m.complexity.max = 0 → m.complexity.maxImport = none
  complexityModule : m.complexity.max = 0 → m.complexity.maxModule = none
  couplingModule : m.coupling.maxAfferent = 0 → m.coupling.maxAfferentModule = none

theorem regular_empty : (empty : Metrics α).Regular where
  depth _ := rfl
  fanout _ := rfl
  complexity _ := rfl
  coupling _ := rfl
  fanoutModule _ := rfl
  complexityImport _ := rfl
  complexityModule _ := rfl
  couplingModule _ := rfl

theorem Regular.merge (hm : m.Regular) (hn : n.Regular) : (m.merge n).Regular where
  depth h := Average.weighted_of_add_eq_zero _ _ h
  fanout h := Average.weighted_of_add_eq_zero _ _ h
  complexity h := Average.weighted_of_add_eq_zero _ _ h
  coupling h := Average.weighted_of_add_eq_zero _ _ h
  fanoutModule := by
    simp only [Metrics.merge]
    split
    · exact hn.fanoutModule
    · exact hm.fanoutModule
  complexityImport := by
    simp only [Metrics.merge]
    split
    · exact hn.complexityImport
    · exact hm.complexityImport
  complexityModule := by
    simp only [Metrics.merge]
    split
    · exact hn.complexityModule
    · exact hm.complexityModule
  couplingModule := by
    simp only [Metrics.merge]
    split
    · exact hn.couplingModule
    · exact hm.couplingModule

theorem Regular.mapPaths (hm : m.Regular) (f : String → String) : (m.mapPaths f).Regular where
  depth := hm.depth
  fanout := hm.fanout
  complexity := hm.complexity
  coupling := hm.coupling
  fanoutModule h := by
    simp only [Metrics.mapPaths, hm.fanoutModule h, Option.map_none]
  complexityImport := hm.complexityImport
  complexityModule h := by
    simp only [Metrics.mapPaths, hm.complexityModule h, Option.map_none]
  couplingModule h := by
    simp only [Metrics.mapPaths, hm.couplingModule h, Option.map_none]

section

variable [LawfulAverage α]

/-! Where a maximum is zero, the metrics of no modules keep theirs, and nobody attains it in either.
-/

theorem Regular.fanout_empty_merge (hm : m.Regular) : (empty.merge m).fanout = m.fanout := by
  have haverage : (empty.merge m).fanout.average = m.fanout.average :=
    Average.weighted_zero_left hm.fanout
  by_cases hmax : (empty : Metrics α).fanout.max < m.fanout.max
  · rw [Metrics.merge, if_pos hmax]
    exact congrArg (FanoutSummary.mk · _ _) haverage
  · have hzero : m.fanout.max = 0 := Nat.eq_zero_of_not_pos hmax
    have hnone := hm.fanoutModule hzero
    rw [Metrics.merge, if_neg hmax]
    change FanoutSummary.mk (empty.merge m).fanout.average 0 none = m.fanout
    rw [haverage, ← hzero, ← hnone]

theorem Regular.complexity_empty_merge (hm : m.Regular) :
    (empty.merge m).complexity = m.complexity := by
  have haverage : (empty.merge m).complexity.average = m.complexity.average :=
    Average.weighted_zero_left hm.complexity
  have hrelative : (empty.merge m).complexity.relativeImports = m.complexity.relativeImports :=
    Nat.zero_add _
  by_cases hmax : (empty : Metrics α).complexity.max < m.complexity.max
  · rw [Metrics.merge, if_pos hmax]
    exact congrArg₂ (ComplexitySummary.mk · _ _ _ ·) haverage hrelative
  · have hzero : m.complexity.max = 0 := Nat.eq_zero_of_not_pos hmax
    have himport := hm.complexityImport hzero
    have hmodule := hm.complexityModule hzero
    rw [Metrics.merge, if_neg hmax]
    change ComplexitySummary.mk (empty.merge m).complexity.average 0 none none
      (empty.merge m).complexity.relativeImports = m.complexity
    rw [haverage, hrelative]
    nth_rewrite 1 [← himport]
    rw [← hzero, ← hmodule]

theorem Regular.coupling_empty_merge (hm : m.Regular) :
    (empty.merge m).coupling = m.coupling := by
  have haverage : (empty.merge m).coupling.averageEfferent = m.coupling.averageEfferent :=
    Average.weighted_zero_left hm.coupling
  by_cases hmax : (empty : Metrics α).coupling.maxAfferent < m.coupling.maxAfferent
  · rw [Metrics.merge, if_pos hmax]
    exact congrArg (CouplingSummary.mk · _ _) haverage
  · have hzero : m.coupling.maxAfferent = 0 := Nat.eq_zero_of_not_pos hmax
    have hnone := hm.couplingModule hzero
    rw [Metrics.merge, if_neg hmax]
    change CouplingSummary.mk (empty.merge m).coupling.averageEfferent 0 none = m.coupling
    rw [haverage, ← hzero, ← hnone]

theorem Regular.depth_empty_merge (hm : m.Regular) : (empty.merge m).depth = m.depth := by
  have haverage : (empty.merge m).depth.average = m.depth.average :=
    Average.weighted_zero_left hm.depth
  exact congrArg₂ DepthSummary.mk haverage (Nat.zero_max _)

/-- Metrics of no modules that come before others change nothing. -/
theorem Regular.empty_merge (hm : m.Regular) : empty.merge m = m := by
  change Metrics.mk (0 + m.moduleCount) (0 + m.edgeCount) (0 + m.externalCount)
    (empty.merge m).depth (empty.merge m).fanout m.cycles (empty.merge m).complexity
    (empty.merge m).coupling m.deadExports m.unreachable m.warnings = m
  rw [hm.depth_empty_merge, hm.fanout_empty_merge, hm.complexity_empty_merge,
    hm.coupling_empty_merge, Nat.zero_add, Nat.zero_add, Nat.zero_add]

/-- Metrics of no modules that come after others change nothing. -/
theorem Regular.merge_empty (hm : m.Regular) : m.merge empty = m := by
  simp only [Metrics.merge, empty, Nat.not_lt_zero, if_false, Nat.add_zero, List.append_nil,
    Nat.max_zero, Average.weighted_zero_right hm.depth, Average.weighted_zero_right hm.fanout,
    Average.weighted_zero_right hm.complexity, Average.weighted_zero_right hm.coupling]

/-- Projects without modules can be left out of a merge or be in it. -/
theorem mergeAll_filterMap {f : ι → Metrics α} (keep : ι → Bool) (hf : ∀ i, (f i).Regular)
    (hskip : ∀ i, keep i = false → f i = empty) (items : List ι) :
    mergeAll (items.filterMap fun i => if keep i then some (f i) else none)
      = (items.map f).foldl merge empty := by
  have hrest : ∀ (items : List ι) (first : Metrics α), first.Regular →
      (items.filterMap fun i => if keep i then some (f i) else none).foldl merge first
        = (items.map f).foldl merge first := by
    intro items
    induction items with
    | nil => exact fun _ _ => rfl
    | cons i items ih =>
      intro first hfirst
      rw [List.map_cons, List.foldl_cons]
      cases hkeep : keep i with
      | true =>
        rw [List.filterMap_cons_some (by rw [hkeep]; rfl), List.foldl_cons]
        exact ih _ (hfirst.merge (hf i))
      | false =>
        rw [List.filterMap_cons_none (by rw [hkeep]; rfl), hskip i hkeep, hfirst.merge_empty]
        exact ih first hfirst
  induction items with
  | nil => rfl
  | cons i items ih =>
    rw [List.map_cons, List.foldl_cons, (hf i).empty_merge]
    cases hkeep : keep i with
    | true =>
      rw [List.filterMap_cons_some (by rw [hkeep]; rfl)]
      exact hrest items (f i) (hf i)
    | false =>
      rw [List.filterMap_cons_none (by rw [hkeep]; rfl), hskip i hkeep]
      exact ih

end

/-! ## Metrics without their warnings -/

/-- All metrics but the warnings. -/
def withoutWarnings (m : Metrics α) : Metrics α := { m with warnings := [] }

theorem withoutWarnings_foldl (rest : List (Metrics α)) (first : Metrics α) :
    (rest.foldl merge first).withoutWarnings
      = (rest.map withoutWarnings).foldl merge first.withoutWarnings := by
  induction rest generalizing first with
  | nil => rfl
  | cons next rest ih =>
    rw [List.foldl_cons, ih, List.map_cons, List.foldl_cons]
    rfl

/-! ## Metrics without their averages -/

/-- All metrics but the averages. -/
def withoutAverages (m : Metrics α) : Metrics Unit :=
  { m with
    depth := { m.depth with average := () }
    fanout := { m.fanout with average := () }
    complexity := { m.complexity with average := () }
    coupling := { m.coupling with averageEfferent := () } }

/-- The other fields of a merge do not depend on the averages. -/
theorem withoutAverages_merge (m n : Metrics α) :
    (m.merge n).withoutAverages = m.withoutAverages.merge n.withoutAverages := by
  have hfanout : (m.merge n).withoutAverages.fanout
      = (m.withoutAverages.merge n.withoutAverages).fanout := by
    by_cases hmax : m.fanout.max < n.fanout.max <;>
      simp only [withoutAverages, Metrics.merge, hmax, if_true, if_false]
  have hcomplexity : (m.merge n).withoutAverages.complexity
      = (m.withoutAverages.merge n.withoutAverages).complexity := by
    by_cases hmax : m.complexity.max < n.complexity.max <;>
      simp only [withoutAverages, Metrics.merge, hmax, if_true, if_false]
  have hcoupling : (m.merge n).withoutAverages.coupling
      = (m.withoutAverages.merge n.withoutAverages).coupling := by
    by_cases hmax : m.coupling.maxAfferent < n.coupling.maxAfferent <;>
      simp only [withoutAverages, Metrics.merge, hmax, if_true, if_false]
  change Metrics.mk _ _ _ _ (m.merge n).withoutAverages.fanout _
    (m.merge n).withoutAverages.complexity (m.merge n).withoutAverages.coupling _ _ _ = _
  rw [hfanout, hcomplexity, hcoupling]
  rfl

theorem withoutAverages_mergeAll (all : List (Metrics α)) :
    (mergeAll all).withoutAverages = mergeAll (all.map withoutAverages) := by
  cases all with
  | nil => rfl
  | cons first rest =>
    change (rest.foldl merge first).withoutAverages
      = (rest.map withoutAverages).foldl merge first.withoutAverages
    induction rest generalizing first with
    | nil => rfl
    | cons next rest ih =>
      rw [List.foldl_cons, ih, List.map_cons, List.foldl_cons, withoutAverages_merge]

omit [Average α] in
theorem withoutAverages_below (root : String) (m : Metrics α) :
    (m.below root).withoutAverages = m.withoutAverages.below root := by
  unfold below
  split <;> rfl

end Metrics

end ModuleAtlas
