import ModuleAtlas.Proofs.Metrics.Merge

/-!
# A merge of many metrics

Metrics have four summaries, each with an average over some weight and with a peak: a maximum, and
who attains it. All four are merged alike. What an average stands for is its product with the
weight, and those products add up (`Average.weighted_mul`); of two peaks the higher one stays, and
of two equal ones the first (`Peak.higher`). Both are associative, so the order in which projects are
merged matters but not how they are grouped (`merge_assoc`).

Merged one after the other, metrics therefore add up to what can be said of all of them at once
(`Gathers`). A single record is not merged with anything and stays as it is: an average that it has
over nothing is not corrected.
-/

namespace ModuleAtlas

/-! ## Exact averages -/

namespace Average

/-- An exact average of two is the quotient of what they stand for together by both weights. -/
theorem weighted_eq_div (a b : ℚ) (m n : ℕ) :
    weighted a m b n = (a * m + b * n) / ((m + n : ℕ) : ℚ) := by
  unfold weighted
  split
  · rename_i htotal
    rw [htotal, Nat.cast_zero, div_zero]
    rfl
  · rfl

/-- What averages stand for adds up, also where the weights are zero. -/
theorem weighted_mul (a b : ℚ) (m n : ℕ) :
    weighted a m b n * ((m + n : ℕ) : ℚ) = a * m + b * n := by
  rw [weighted_eq_div]
  by_cases htotal : m + n = 0
  · obtain ⟨rfl, rfl⟩ := Nat.add_eq_zero_iff.mp htotal
    simp
  · exact div_mul_cancel₀ _ (Nat.cast_ne_zero.mpr htotal)

theorem weighted_assoc (a b c : ℚ) (m n k : ℕ) :
    weighted (weighted a m b n) (m + n) c k = weighted a m (weighted b n c k) (n + k) := by
  rw [weighted_eq_div _ c, weighted_mul, weighted_eq_div a, weighted_mul, Nat.add_assoc, add_assoc]

end Average

/-- The mean of some averages, each with the weight it is taken over; zero if there is no weight. -/
def weightedMean (parts : List (ℚ × ℕ)) : ℚ :=
  if (parts.map (·.2)).sum = 0 then 0
  else (parts.map fun part => part.1 * (part.2 : ℚ)).sum / ((parts.map (·.2)).sum : ℕ)

namespace Metrics

/-! ## Peaks -/

/-- A maximum, with the import and the module that attain it as far as they are named. -/
structure Peak where
  max : ℕ
  statement : Option String := none
  module : Option String := none
  deriving DecidableEq, Repr

namespace Peak

variable {p q r : Peak} {peaks before after : List Peak}

/-- The higher of two peaks, and of two equal ones the first. -/
def higher (p q : Peak) : Peak := if p.max < q.max then q else p

theorem higher_assoc (p q r : Peak) : (p.higher q).higher r = p.higher (q.higher r) := by
  unfold higher
  grind

/-- A peak that is attained in another place. -/
def mapModule (f : String → String) (p : Peak) : Peak := { p with module := p.module.map f }

theorem mapModule_higher (f : String → String) (p q : Peak) :
    (p.higher q).mapModule f = (p.mapModule f).higher (q.mapModule f) :=
  apply_ite (mapModule f) (p.max < q.max) q p

/-- The first of the highest peaks of a list: all before it are lower, none after it is higher. -/
def IsFirst (p : Peak) (peaks : List Peak) : Prop :=
  ∃ before after, peaks = before ++ p :: after ∧
    (∀ q ∈ before, q.max < p.max) ∧ ∀ q ∈ after, q.max ≤ p.max

theorem IsFirst.max_le (h : p.IsFirst peaks) (hq : q ∈ peaks) : q.max ≤ p.max := by
  obtain ⟨before, after, rfl, hbefore, hafter⟩ := h
  rcases List.mem_append.mp hq with hq | hq
  · exact (hbefore q hq).le
  · rcases List.mem_cons.mp hq with rfl | hq
    · exact le_refl _
    · exact hafter q hq

/-- A lower peak can be put in front. -/
theorem IsFirst.cons (h : p.IsFirst peaks) (hq : q.max < p.max) : p.IsFirst (q :: peaks) := by
  obtain ⟨before, after, rfl, hbefore, hafter⟩ := h
  exact ⟨q :: before, after, rfl, List.forall_mem_cons.mpr ⟨hq, hbefore⟩, hafter⟩

/-- Behind the first peak of a list another one can be put in that is not higher. -/
theorem IsFirst.insert (h : p.IsFirst (q :: peaks)) (hr : r.max ≤ q.max) :
    p.IsFirst (q :: r :: peaks) := by
  obtain ⟨before, after, hpeaks, hbefore, hafter⟩ := h
  cases before with
  | nil =>
    obtain ⟨rfl, rfl⟩ := List.cons.inj hpeaks
    exact ⟨[], r :: peaks, rfl, hbefore, List.forall_mem_cons.mpr ⟨hr, hafter⟩⟩
  | cons first before =>
    obtain ⟨rfl, rfl⟩ := List.cons.inj hpeaks
    obtain ⟨hq, hbefore⟩ := List.forall_mem_cons.mp hbefore
    refine ⟨q :: r :: before, after, rfl, ?_, hafter⟩
    exact List.forall_mem_cons.mpr ⟨hq, List.forall_mem_cons.mpr ⟨by omega, hbefore⟩⟩

/-- Taking the higher peak again and again ends at the first of the highest. -/
theorem isFirst_foldl (p : Peak) (peaks : List Peak) :
    (peaks.foldl higher p).IsFirst (p :: peaks) := by
  induction peaks generalizing p with
  | nil => exact ⟨[], [], rfl, by simp, by simp⟩
  | cons q peaks ih =>
    rw [List.foldl_cons]
    have hfirst := ih (p.higher q)
    by_cases hlt : p.max < q.max
    · rw [higher, if_pos hlt] at hfirst ⊢
      have hq := hfirst.max_le List.mem_cons_self
      exact hfirst.cons (by omega)
    · rw [higher, if_neg hlt] at hfirst ⊢
      exact hfirst.insert (by omega)

end Peak

/-! ## Summaries -/

/-- The summaries in metrics. -/
inductive Summary where
  | depth
  | fanout
  | complexity
  | coupling

namespace Summary

variable {α : Type}

/-- The average of a summary. -/
def average : Summary → Metrics α → α
  | .depth, m => m.depth.average
  | .fanout, m => m.fanout.average
  | .complexity, m => m.complexity.average
  | .coupling, m => m.coupling.averageEfferent

/-- What the average is taken over: the modules, or the relative imports. -/
def weight : Summary → Metrics α → ℕ
  | .complexity, m => m.complexity.relativeImports
  | _, m => m.moduleCount

/-- The maximum of a summary and who attains it. -/
def peak : Summary → Metrics α → Peak
  | .depth, m => { max := m.depth.max }
  | .fanout, m => { max := m.fanout.max, module := m.fanout.maxModule }
  | .complexity, m =>
    { max := m.complexity.max
      statement := m.complexity.maxImport
      module := m.complexity.maxModule }
  | .coupling, m => { max := m.coupling.maxAfferent, module := m.coupling.maxAfferentModule }

theorem peak_mapPaths (s : Summary) (f : String → String) (m : Metrics α) :
    s.peak (m.mapPaths f) = (s.peak m).mapModule f := by
  cases s <;> rfl

variable [Average α]

theorem average_merge (s : Summary) (m n : Metrics α) : s.average (m.merge n)
    = Average.weighted (s.average m) (s.weight m) (s.average n) (s.weight n) := by
  cases s <;> rfl

theorem weight_merge (s : Summary) (m n : Metrics α) :
    s.weight (m.merge n) = s.weight m + s.weight n := by
  cases s <;> rfl

/-- Of two peaks the higher one stays, with those who attain it. -/
theorem peak_merge (s : Summary) (m n : Metrics α) :
    s.peak (m.merge n) = (s.peak m).higher (s.peak n) := by
  cases s with
  | depth =>
    have hmax : Nat.max m.depth.max n.depth.max
        = if m.depth.max < n.depth.max then n.depth.max else m.depth.max := by
      grind
    exact (congrArg (Peak.mk · none none) hmax).trans
      (apply_ite (Peak.mk · none none) (m.depth.max < n.depth.max) _ _)
  | fanout =>
    exact apply_ite (fun f : FanoutSummary α => Peak.mk f.max none f.maxModule)
      (m.fanout.max < n.fanout.max) n.fanout m.fanout
  | complexity =>
    exact apply_ite (fun c : ComplexitySummary α => Peak.mk c.max c.maxImport c.maxModule)
      (m.complexity.max < n.complexity.max) n.complexity m.complexity
  | coupling =>
    exact apply_ite (fun c : CouplingSummary α => Peak.mk c.maxAfferent none c.maxAfferentModule)
      (m.coupling.maxAfferent < n.coupling.maxAfferent) n.coupling m.coupling

end Summary

section

variable {α : Type} {m n : Metrics α}

/-- Metrics are their counts, their summaries and their lists. -/
theorem ext_summaries (hmodules : m.moduleCount = n.moduleCount)
    (hedges : m.edgeCount = n.edgeCount) (hexternals : m.externalCount = n.externalCount)
    (hrelatives : m.complexity.relativeImports = n.complexity.relativeImports)
    (haverage : ∀ s : Summary, s.average m = s.average n)
    (hpeak : ∀ s : Summary, s.peak m = s.peak n) (hcycles : m.cycles = n.cycles)
    (hdead : m.deadExports = n.deadExports) (hunreachable : m.unreachable = n.unreachable)
    (hwarnings : m.warnings = n.warnings) : m = n := by
  have hdepth : m.depth = n.depth := by
    change DepthSummary.mk (Summary.depth.average m) (Summary.depth.peak m).max = n.depth
    rw [haverage, hpeak]
    rfl
  have hfanout : m.fanout = n.fanout := by
    change FanoutSummary.mk (Summary.fanout.average m) (Summary.fanout.peak m).max
      (Summary.fanout.peak m).module = n.fanout
    rw [haverage, hpeak]
    rfl
  have hcomplexity : m.complexity = n.complexity := by
    change ComplexitySummary.mk (Summary.complexity.average m) (Summary.complexity.peak m).max
      (Summary.complexity.peak m).statement (Summary.complexity.peak m).module
      m.complexity.relativeImports = n.complexity
    rw [haverage, hpeak, hrelatives]
    rfl
  have hcoupling : m.coupling = n.coupling := by
    change CouplingSummary.mk (Summary.coupling.average m) (Summary.coupling.peak m).max
      (Summary.coupling.peak m).module = n.coupling
    rw [haverage, hpeak]
    rfl
  change Metrics.mk m.moduleCount m.edgeCount m.externalCount m.depth m.fanout m.cycles m.complexity
    m.coupling m.deadExports m.unreachable m.warnings = n
  rw [hmodules, hedges, hexternals, hdepth, hfanout, hcycles, hcomplexity, hcoupling, hdead,
    hunreachable, hwarnings]

end

/-! ## Laws of merging -/

/-- It does not matter how projects are grouped that are merged one after the other. -/
theorem merge_assoc (a b c : Metrics ℚ) : (a.merge b).merge c = a.merge (b.merge c) := by
  refine ext_summaries (Nat.add_assoc _ _ _) (Nat.add_assoc _ _ _) (Nat.add_assoc _ _ _)
    (Nat.add_assoc _ _ _) (fun s => ?_) (fun s => ?_) (List.append_assoc _ _ _)
    (List.append_assoc _ _ _) (List.append_assoc _ _ _) (List.append_assoc _ _ _)
  · simp only [Summary.average_merge, Summary.weight_merge, Average.weighted_assoc]
  · simp only [Summary.peak_merge, Peak.higher_assoc]

section

variable {α : Type} [Average α]

/-- Paths can be put below a root before metrics are merged or afterwards. -/
theorem below_merge (root : String) (m n : Metrics α) :
    (m.merge n).below root = (m.below root).merge (n.below root) := by
  simp only [below_eq_mapPaths]
  refine ext_summaries rfl rfl rfl rfl (fun s => ?_) (fun s => ?_) List.map_append List.map_append
    List.map_append List.map_append
  · cases s <;> rfl
  · simp only [Summary.peak_mapPaths, Summary.peak_merge, Peak.mapModule_higher]

theorem below_empty (root : String) : (empty : Metrics α).below root = empty := by
  rw [below_eq_mapPaths]
  rfl

theorem below_mergeAll (root : String) (all : List (Metrics α)) :
    (mergeAll all).below root = mergeAll (all.map (·.below root)) := by
  cases all with
  | nil => exact below_empty root
  | cons first rest =>
    rw [mergeAll, List.map_cons, mergeAll, List.foldl_map]
    refine (List.foldl_hom (below root) ?_).symm
    exact fun m n => (below_merge root m n).symm

theorem Regular.mergeAll {all : List (Metrics α)} (h : ∀ m ∈ all, m.Regular) :
    (Metrics.mergeAll all).Regular := by
  cases all with
  | nil => exact regular_empty
  | cons first rest =>
    obtain ⟨hfirst, hrest⟩ := List.forall_mem_cons.mp h
    exact List.foldlRecOn rest _ hfirst fun _ hm n hn => hm.merge (hrest n hn)

theorem Regular.average_eq_zero {m : Metrics α} (h : m.Regular) (s : Summary)
    (hweight : s.weight m = 0) : s.average m = Average.zero := by
  cases s with
  | depth => exact h.depth hweight
  | fanout => exact h.fanout hweight
  | complexity => exact h.complexity hweight
  | coupling => exact h.coupling hweight

end

/-! ## Many metrics -/

variable {all : List (Metrics ℚ)}

theorem weight_mergeAll (s : Summary) (all : List (Metrics ℚ)) :
    s.weight (mergeAll all) = (all.map s.weight).sum := by
  rw [foldr_mergeAll s.weight (by cases s <;> rfl) s.weight_merge, List.sum_eq_foldr]

/-- What the averages stand for adds up. -/
theorem average_mul_weight_mergeAll (s : Summary) (all : List (Metrics ℚ)) :
    s.average (mergeAll all) * s.weight (mergeAll all)
      = (all.map fun m => s.average m * (s.weight m : ℚ)).sum := by
  have hempty : s.average (empty : Metrics ℚ) * s.weight (empty : Metrics ℚ) = 0 := by
    cases s <;> exact zero_mul _
  have hmerge : ∀ m n : Metrics ℚ, s.average (m.merge n) * s.weight (m.merge n)
      = s.average m * s.weight m + s.average n * s.weight n := by
    intro m n
    rw [s.average_merge, s.weight_merge, Average.weighted_mul]
  rw [foldr_mergeAll (fun m : Metrics ℚ => s.average m * (s.weight m : ℚ)) hempty hmerge,
    List.sum_eq_foldr]

/-- A merge of several metrics has an average over nothing that is zero. A single record has the
average it came with. -/
theorem average_mergeAll_eq_zero (s : Summary)
    (hsingle : ∀ m, all = [m] → s.weight m = 0 → s.average m = 0)
    (hweight : s.weight (mergeAll all) = 0) : s.average (mergeAll all) = 0 := by
  have hmerge : ∀ m n : Metrics ℚ, s.weight (m.merge n) = 0 → s.average (m.merge n) = 0 := by
    intro m n hzero
    rw [s.weight_merge] at hzero
    rw [s.average_merge]
    exact Average.weighted_of_add_eq_zero _ _ hzero
  match all with
  | [] => cases s <;> rfl
  | [m] => exact hsingle m rfl hweight
  | m :: n :: rest =>
    exact List.foldlRecOn (motive := fun m => s.weight m = 0 → s.average m = 0) rest merge
      (hmerge m n) (fun m _ n _ => hmerge m n) hweight

/-- The average of a merge is the weighted mean of the averages. -/
theorem average_mergeAll (s : Summary)
    (hsingle : ∀ m, all = [m] → s.weight m = 0 → s.average m = 0) :
    s.average (mergeAll all) = weightedMean (all.map fun m => (s.average m, s.weight m)) := by
  have hproduct := average_mul_weight_mergeAll s all
  have hweight := weight_mergeAll s all
  unfold weightedMean
  simp only [List.map_map, Function.comp_def]
  rw [← hproduct, ← hweight]
  split
  · rename_i hzero
    exact average_mergeAll_eq_zero s hsingle hzero
  · rename_i hne
    exact (mul_div_cancel_right₀ _ (Nat.cast_ne_zero.mpr hne)).symm

/-- The peak of a merge is the first of the highest peaks. -/
theorem isFirst_peak_mergeAll (s : Summary) (hall : all ≠ []) :
    (s.peak (mergeAll all)).IsFirst (all.map s.peak) := by
  cases all with
  | nil => exact absurd rfl hall
  | cons first rest =>
    have hfold : s.peak (rest.foldl merge first)
        = (rest.map s.peak).foldl Peak.higher (s.peak first) := by
      rw [List.foldl_map]
      refine (List.foldl_hom s.peak ?_).symm
      exact fun m n => (s.peak_merge m n).symm
    rw [mergeAll, hfold]
    exact Peak.isFirst_foldl (s.peak first) (rest.map s.peak)

/-- The lists of a merge are those of all metrics one after the other. -/
theorem flatMap_mergeAll {β : Type} (list : Metrics ℚ → List β) (hempty : list empty = [])
    (hmerge : ∀ m n, list (m.merge n) = list m ++ list n) (all : List (Metrics ℚ)) :
    list (mergeAll all) = all.flatMap list := by
  rw [foldr_mergeAll list hempty hmerge, List.foldr_map, List.foldr_append_eq_append,
    List.append_nil, List.flatMap_def]

theorem sum_mergeAll (count : Metrics ℚ → ℕ) (hempty : count empty = 0)
    (hmerge : ∀ m n, count (m.merge n) = count m + count n) (all : List (Metrics ℚ)) :
    count (mergeAll all) = (all.map count).sum := by
  rw [foldr_mergeAll count hempty hmerge, List.sum_eq_foldr]

/-- What can be said at once of metrics that are merged one after the other. -/
structure Gathers (all : List (Metrics ℚ)) (merged : Metrics ℚ) : Prop where
  nothing : all = [] → merged = empty
  /-- a single record is left as it is -/
  single : ∀ m, all = [m] → merged = m
  moduleCount : merged.moduleCount = (all.map (·.moduleCount)).sum
  edgeCount : merged.edgeCount = (all.map (·.edgeCount)).sum
  externalCount : merged.externalCount = (all.map (·.externalCount)).sum
  relativeImports : merged.complexity.relativeImports
    = (all.map (·.complexity.relativeImports)).sum
  /-- the averages are weighted means, unless a single record has an average over nothing -/
  average : ∀ s : Summary, (∀ m, all = [m] → s.weight m = 0 → s.average m = 0) →
    s.average merged = weightedMean (all.map fun m => (s.average m, s.weight m))
  /-- a maximum is the largest one and comes with the names of the first record that attains it -/
  peak : ∀ s : Summary, all ≠ [] → (s.peak merged).IsFirst (all.map s.peak)
  cycles : merged.cycles = all.flatMap (·.cycles)
  deadExports : merged.deadExports = all.flatMap (·.deadExports)
  unreachable : merged.unreachable = all.flatMap (·.unreachable)
  warnings : merged.warnings = all.flatMap (·.warnings)

theorem gathers_mergeAll (all : List (Metrics ℚ)) : Gathers all (mergeAll all) where
  nothing := by rintro rfl; rfl
  single := by rintro m rfl; rfl
  moduleCount := sum_mergeAll (·.moduleCount) rfl (fun _ _ => rfl) all
  edgeCount := sum_mergeAll (·.edgeCount) rfl (fun _ _ => rfl) all
  externalCount := sum_mergeAll (·.externalCount) rfl (fun _ _ => rfl) all
  relativeImports := sum_mergeAll (·.complexity.relativeImports) rfl (fun _ _ => rfl) all
  average s hsingle := average_mergeAll s hsingle
  peak s hall := isFirst_peak_mergeAll s hall
  cycles := flatMap_mergeAll (·.cycles) rfl (fun _ _ => rfl) all
  deadExports := flatMap_mergeAll (·.deadExports) rfl (fun _ _ => rfl) all
  unreachable := flatMap_mergeAll (·.unreachable) rfl (fun _ _ => rfl) all
  warnings := flatMap_mergeAll (·.warnings) rfl (fun _ _ => rfl) all

end Metrics

end ModuleAtlas
