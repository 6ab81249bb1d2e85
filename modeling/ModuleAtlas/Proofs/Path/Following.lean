import Mathlib.Data.List.Infix
import ModuleAtlas.Proofs.Path

/-!
# Following a relative path

A relative path is followed part by part with the directories on the way as a stack: a name goes
down, two points go up, and empty parts and single points stay. It leads nowhere exactly if at some
point it has gone up more often than there were directories and names before (`follow_eq_none_iff`).
Otherwise the names and the steps up account for the length of the result (`follow_eq_some`), and
nothing but names is added to the directories (`mem_of_follow`).

What comes after a `/` is followed from where the part before it leads (`follow_append`). The
directories on the stack are read back from the path that they make, since none of them is empty or
has a `/` inside, so paths can be followed one after the other (`resolve?_append`).
-/

namespace ModuleAtlas.Path

variable {part directory relative : String} {inside found parts : List String} {hops reached : ℕ}

/-! ## One part -/

/-- A part that neither stays nor goes up is a name. -/
theorem isName_of_not (hstay : ¬ (part = "" ∨ part = ".")) (hup : part ≠ "..") : IsName part :=
  ⟨fun h => hstay (Or.inl h), fun h => hstay (Or.inr h), hup⟩

theorem follow_stay (h : part = "" ∨ part = ".") (inside : List String) (hops : ℕ)
    (parts : List String) : follow inside hops (part :: parts) = follow inside hops parts :=
  if_pos h

theorem follow_up_nil (hops : ℕ) (parts : List String) : follow [] hops (".." :: parts) = none := by
  simp [follow]

theorem follow_up_cons (inner : String) (outside : List String) (hops : ℕ) (parts : List String) :
    follow (inner :: outside) hops (".." :: parts) = follow outside (hops + 1) parts := by
  simp [follow]

theorem follow_down (h : IsName part) (inside : List String) (hops : ℕ) (parts : List String) :
    follow inside hops (part :: parts) = follow (part :: inside) hops parts := by
  obtain ⟨hempty, hpoint, hup⟩ := h
  simp [follow, hempty, hpoint, hup]

/-! ## Counts of parts -/

/-- The number of parts that go up. -/
def stepsIn (parts : List String) : ℕ := parts.count ".."

/-- The number of parts that go down. -/
def namesIn (parts : List String) : ℕ := parts.countP (IsName ·)

@[simp] theorem stepsIn_nil : stepsIn [] = 0 := rfl

@[simp] theorem namesIn_nil : namesIn [] = 0 := rfl

theorem counts_stay (h : part = "" ∨ part = ".") (parts : List String) :
    stepsIn (part :: parts) = stepsIn parts ∧ namesIn (part :: parts) = namesIn parts := by
  have hother : ¬ IsName part ∧ part ≠ ".." := by
    rcases h with rfl | rfl <;> decide
  exact ⟨List.count_cons_of_ne hother.2, List.countP_cons_of_neg (by simpa using hother.1)⟩

theorem counts_up (parts : List String) :
    stepsIn (".." :: parts) = stepsIn parts + 1 ∧ namesIn (".." :: parts) = namesIn parts :=
  ⟨List.count_cons_self, List.countP_cons_of_neg (by decide)⟩

theorem counts_down (h : IsName part) (parts : List String) :
    stepsIn (part :: parts) = stepsIn parts ∧ namesIn (part :: parts) = namesIn parts + 1 :=
  ⟨List.count_cons_of_ne h.2.2, List.countP_cons_of_pos (by simpa using h)⟩

/-! ## All parts -/

/-- A property of some front of a list that does not hold of the empty one holds of a front with the
first item. -/
theorem exists_prefix_cons_iff {P : List String → Prop} (hnil : ¬ P []) :
    (∃ front, front <+: part :: parts ∧ P front) ↔
      ∃ front, front <+: parts ∧ P (part :: front) := by
  constructor
  · rintro ⟨front, hfront, hP⟩
    rcases List.prefix_cons_iff.mp hfront with rfl | ⟨rest, rfl, hrest⟩
    · exact absurd hP hnil
    · exact ⟨rest, hrest, hP⟩
  · rintro ⟨front, hfront, hP⟩
    exact ⟨part :: front, List.cons_prefix_cons.mpr ⟨rfl, hfront⟩, hP⟩

/-- A path leads nowhere exactly if some front of it goes up more often than there are directories
and names to leave. -/
theorem follow_eq_none_iff : follow inside hops parts = none ↔
    ∃ front, front <+: parts ∧ inside.length + namesIn front < stepsIn front := by
  fun_induction follow inside hops parts with
  | case1 inside hops => simp
  | case2 inside hops part rest hstay ih =>
    rw [exists_prefix_cons_iff (by simp), ih]
    simp only [counts_stay hstay]
  | case3 hops rest =>
    -- there is nothing to leave above the root
    exact iff_of_true rfl ⟨[".."], by simp, by decide⟩
  | case4 hops rest inner outside hstay ih =>
    rw [exists_prefix_cons_iff (by simp), ih]
    simp only [counts_up, List.length_cons]
    exact exists_congr fun front => and_congr_right fun _ => by omega
  | case5 inside hops part rest hstay hup ih =>
    rw [exists_prefix_cons_iff (by simp), ih]
    simp only [counts_down (isName_of_not hstay hup), List.length_cons]
    exact exists_congr fun front => and_congr_right fun _ => by omega

/-- Every part that goes up is counted, and takes one directory or name away. -/
theorem follow_eq_some (h : follow inside hops parts = some (found, reached)) :
    reached = hops + stepsIn parts ∧
      found.length + stepsIn parts = inside.length + namesIn parts := by
  fun_induction follow inside hops parts with
  | case1 inside hops =>
    obtain ⟨rfl, rfl⟩ := Prod.mk.inj (Option.some.inj h)
    simp
  | case2 inside hops part rest hstay ih =>
    rw [(counts_stay hstay rest).1, (counts_stay hstay rest).2]
    exact ih h
  | case3 hops rest => cases h
  | case4 hops rest inner outside hstay ih =>
    obtain ⟨hhops, hlength⟩ := ih h
    rw [(counts_up rest).1, (counts_up rest).2, List.length_cons]
    omega
  | case5 inside hops part rest hstay hup ih =>
    obtain ⟨hhops, hlength⟩ := ih h
    have hname := isName_of_not hstay hup
    rw [(counts_down hname rest).1, (counts_down hname rest).2]
    rw [List.length_cons] at hlength
    omega

/-- The segments of the result are directories that were there before, and names. -/
theorem mem_of_follow (h : follow inside hops parts = some (found, reached)) {segment : String}
    (hsegment : segment ∈ found) : segment ∈ inside ∨ segment ∈ parts ∧ IsName segment := by
  fun_induction follow inside hops parts with
  | case1 inside hops =>
    obtain ⟨rfl, -⟩ := Prod.mk.inj (Option.some.inj h)
    exact Or.inl (List.mem_reverse.mp hsegment)
  | case2 inside hops part rest hstay ih =>
    exact (ih h).imp_right (And.imp_left (List.mem_cons_of_mem part))
  | case3 hops rest => cases h
  | case4 hops rest inner outside hstay ih =>
    exact (ih h).imp (List.mem_cons_of_mem inner) (And.imp_left (List.mem_cons_of_mem ".."))
  | case5 inside hops part rest hstay hup ih =>
    rcases ih h with hinside | hpart
    · rcases List.mem_cons.mp hinside with rfl | hinside
      · exact Or.inr ⟨List.mem_cons_self, isName_of_not hstay hup⟩
      · exact Or.inl hinside
    · exact Or.inr (hpart.imp_left (List.mem_cons_of_mem part))

/-- The steps up so far are only added to. -/
theorem follow_add (inside : List String) (first hops : ℕ) (parts : List String) :
    follow inside (first + hops) parts
      = (follow inside hops parts).map fun (found, more) => (found, first + more) := by
  fun_induction follow inside hops parts with
  | case1 inside hops => rfl
  | case2 inside hops part rest hstay ih => rw [follow_stay hstay, ih]
  | case3 hops rest => rw [follow_up_nil, Option.map_none]
  | case4 hops rest inner outside hstay ih => rw [follow_up_cons, Nat.add_assoc, ih]
  | case5 inside hops part rest hstay hup ih => rw [follow_down (isName_of_not hstay hup), ih]

/-- Parts are followed one after the other. -/
theorem follow_append (inside : List String) (hops : ℕ) (front rest : List String) :
    follow inside hops (front ++ rest) = (follow inside hops front).bind fun (found, reached) =>
      follow found.reverse reached rest := by
  fun_induction follow inside hops front with
  | case1 inside hops => simp
  | case2 inside hops part front hstay ih => rw [List.cons_append, follow_stay hstay, ih]
  | case3 hops front => rw [List.cons_append, follow_up_nil, Option.bind_none]
  | case4 hops front inner outside hstay ih => rw [List.cons_append, follow_up_cons, ih]
  | case5 inside hops part front hstay hup ih =>
    rw [List.cons_append, follow_down (isName_of_not hstay hup), ih]

/-! ## Paths -/

theorem mem_namedSegments {segment : String} :
    segment ∈ namedSegments directory ↔ segment ∈ segments directory ∧ segment ≠ "" := by
  rw [namedSegments, List.mem_filter, decide_eq_true_eq]

/-- A path leads where its parts lead. -/
theorem resolve?_eq_some_iff {there : Destination} : resolve? directory relative = some there ↔
    ∃ found, follow (namedSegments directory).reverse 0 (segments relative)
      = some (found, there.hops) ∧ there.path = Text.join "/" found := by
  rw [resolve?, Option.map_eq_some_iff]
  constructor
  · rintro ⟨⟨found, hops⟩, hfound, rfl⟩
    exact ⟨found, hfound, rfl⟩
  · rintro ⟨found, hfound, hpath⟩
    obtain ⟨path, hops⟩ := there
    obtain rfl : path = Text.join "/" found := hpath
    exact ⟨_, hfound, rfl⟩

/-- The segments of the result are no steps, if those of the directory are none. -/
theorem mem_of_follow_segments
    (h : follow (namedSegments directory).reverse hops (segments relative) = some (found, reached))
    {segment : String} (hsegment : segment ∈ found) :
    '/' ∉ segment.toList ∧ (segment ∈ namedSegments directory ∨ IsName segment) := by
  rcases mem_of_follow h hsegment with hinside | ⟨hpart, hname⟩
  · have hnamed := List.mem_reverse.mp hinside
    exact ⟨slash_not_mem (mem_namedSegments.mp hnamed).1, Or.inl hnamed⟩
  · exact ⟨slash_not_mem hpart, Or.inr hname⟩

/-- The segments of the result can be read back from its path. -/
theorem namedSegments_of_follow
    (h : follow (namedSegments directory).reverse hops (segments relative)
      = some (found, reached)) : namedSegments (Text.join "/" found) = found := by
  refine namedSegments_join (fun segment hsegment => (mem_of_follow_segments h hsegment).1) ?_
  intro segment hsegment
  rcases (mem_of_follow_segments h hsegment).2 with hnamed | hname
  · exact (mem_namedSegments.mp hnamed).2
  · exact hname.1

/-- Names make a normal path, or the root if there are none. -/
theorem eq_empty_or_isNormal_join (hslash : ∀ name ∈ found, '/' ∉ name.toList)
    (hnames : ∀ name ∈ found, IsName name) :
    Text.join "/" found = "" ∨ IsNormal (Text.join "/" found) := by
  by_cases hfound : found = []
  · exact Or.inl (by rw [hfound]; rfl)
  · refine Or.inr ?_
    rw [IsNormal, segments_join hfound hslash]
    exact hnames

/-- What comes after a `/` is followed from where the path before it leads. -/
theorem resolve?_append (directory relative further : String) :
    resolve? directory (relative ++ "/" ++ further)
      = (resolve? directory relative).bind fun there =>
          (resolve? there.path further).map fun more => ⟨more.path, there.hops + more.hops⟩ := by
  have hsegments : segments (relative ++ "/" ++ further) = segments relative ++ segments further :=
    Text.split_append '/' relative further
  rw [resolve?, hsegments, follow_append, resolve?]
  cases hfollow : follow (namedSegments directory).reverse 0 (segments relative) with
  | none => rfl
  | some destination =>
    obtain ⟨found, hops⟩ := destination
    simp only [Option.bind_some, Option.map_some]
    rw [← Nat.add_zero hops, follow_add, resolve?, namedSegments_of_follow hfollow]
    simp only [Option.map_map]
    rfl

/-- A relative path leads nowhere exactly if some front of it goes up more often than there are
segments of the directory and names before it. Otherwise every step up is counted and takes one
segment away, each name adds one, and the result is a normal path or the root, if the directory has
no steps in it. The path with another one behind it leads where the other one leads from there. -/
theorem destination_laws (directory relative : String) :
    (resolve? directory relative = none ↔ ∃ front, front <+: segments relative ∧
      (namedSegments directory).length + namesIn front < stepsIn front) ∧
    (∀ there, resolve? directory relative = some there →
      there.hops = stepsIn (segments relative) ∧
      (namedSegments there.path).length + there.hops
        = (namedSegments directory).length + namesIn (segments relative)) ∧
    ((∀ segment ∈ segments directory, segment ≠ "." ∧ segment ≠ "..") →
      ∀ there, resolve? directory relative = some there →
        there.path = "" ∨ IsNormal there.path) ∧
    ∀ further, resolve? directory (relative ++ "/" ++ further)
      = (resolve? directory relative).bind fun there =>
          (resolve? there.path further).map fun more => ⟨more.path, there.hops + more.hops⟩ := by
  refine ⟨?_, fun there hthere => ?_, fun hsteps there hthere => ?_,
    resolve?_append directory relative⟩
  · rw [resolve?, Option.map_eq_none_iff, follow_eq_none_iff, List.length_reverse]
  · obtain ⟨found, hfollow, hpath⟩ := resolve?_eq_some_iff.mp hthere
    obtain ⟨hhops, hlength⟩ := follow_eq_some hfollow
    rw [Nat.zero_add] at hhops
    rw [List.length_reverse] at hlength
    rw [hpath, namedSegments_of_follow hfollow, hhops]
    exact ⟨rfl, hlength⟩
  · obtain ⟨found, hfollow, hpath⟩ := resolve?_eq_some_iff.mp hthere
    rw [hpath]
    refine eq_empty_or_isNormal_join (fun name hname => (mem_of_follow_segments hfollow hname).1) ?_
    intro name hname
    rcases (mem_of_follow_segments hfollow hname).2 with hnamed | hisName
    · obtain ⟨hsegment, hne⟩ := mem_namedSegments.mp hnamed
      exact ⟨hne, hsteps name hsegment⟩
    · exact hisName

end ModuleAtlas.Path
