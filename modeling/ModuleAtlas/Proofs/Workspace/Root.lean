import Mathlib.Data.List.Sort
import ModuleAtlas.Analysis
import ModuleAtlas.Proofs.Text.Sorted
import ModuleAtlas.Proofs.Text.Split

/-!
# Roots and what they contain

The roots of a workspace are those of its manifests and the scan root, each once and in ascending
order. A path belongs to the longest root that contains it. All roots that contain a path are fronts
of it, so there is only one that is longest, and a path can be taken apart into its root and the rest
and put together again.

* `owningRoot_eq_iff` : the root to which a path belongs.
* `mem_workspaceRoots`, `find?_workspaceManifests` : the roots and the manifest of each.
* `workspaceManifests_eq_of_perm` : the order of the manifests does not matter if no two have the
  same root.
-/

namespace ModuleAtlas

variable {root other path rest : String} {roots : List String} {manifests : List Manifest}

/-! ## Paths below a root -/

theorem Path.below?_eq_some_iff : Path.below? root path = some rest ↔ path = Path.under root rest := by
  unfold Path.below? Path.under
  split
  · rw [Option.some.injEq]
  · exact Text.stripFront?_eq_some_iff

theorem containsPath_iff : containsPath root path = true ↔ ∃ rest, path = Path.under root rest := by
  rw [containsPath, Option.isSome_iff_exists]
  exact exists_congr fun _ => Path.below?_eq_some_iff

/-- The path continues the root after a `/`, or the root is the scan root. -/
def IsBelow (root path : String) : Prop := root = "" ∨ ∃ rest, path = root ++ "/" ++ rest

theorem containsPath_iff_isBelow : containsPath root path = true ↔ IsBelow root path := by
  rw [containsPath_iff]
  unfold IsBelow Path.under
  by_cases hroot : root = ""
  · simp [hroot]
  · simp [hroot]

theorem containsPath_scanRoot (path : String) : containsPath "" path = true :=
  containsPath_iff.mpr ⟨path, rfl⟩

theorem relativeTo_under (root rest : String) : relativeTo root (Path.under root rest) = rest := by
  have hbelow : Path.below? root (Path.under root rest) = some rest :=
    Path.below?_eq_some_iff.mpr rfl
  rw [relativeTo, hbelow, Option.getD_some]

/-- Different paths stay different below a root. -/
theorem Path.under_injective (root : String) : Function.Injective (Path.under root) :=
  Function.LeftInverse.injective (relativeTo_under root)

/-- A path is its root and the rest together. -/
theorem under_relativeTo (h : containsPath root path = true) :
    Path.under root (relativeTo root path) = path := by
  obtain ⟨rest, rfl⟩ := containsPath_iff.mp h
  rw [relativeTo_under]

theorem front_of_containsPath (h : containsPath root path = true) :
    root.toList <+: path.toList := by
  rcases containsPath_iff_isBelow.mp h with rfl | ⟨rest, rfl⟩
  · exact List.nil_prefix
  · rw [String.toList_append, String.toList_append, List.append_assoc]
    exact List.prefix_append _ _

/-- Of the roots that contain a path, only one has a given length. -/
theorem eq_of_containsPath (hroot : containsPath root path = true)
    (hother : containsPath other path = true) (hlength : root.length = other.length) :
    root = other := by
  -- both are fronts of the path
  have hlists : root.toList.length = other.toList.length := by
    rw [String.length_toList, String.length_toList, hlength]
  have hfront : root.toList <+: other.toList :=
    List.prefix_of_prefix_length_le (front_of_containsPath hroot) (front_of_containsPath hother)
      hlists.le
  exact String.toList_inj.mp (hfront.eq_of_length hlists)

/-! ## The root of a path -/

/-- The longer of two roots, and of two equally long ones the second. -/
def longer (best root : String) : String := if best.length ≤ root.length then root else best

theorem owningRoot_eq_foldl (roots : List String) (path : String) :
    owningRoot roots path = (roots.filter (containsPath · path)).foldl longer "" := rfl

theorem foldl_longer_mem (best : String) (roots : List String) :
    roots.foldl longer best ∈ best :: roots := by
  induction roots generalizing best with
  | nil => exact List.mem_singleton_self best
  | cons root roots ih =>
    rw [List.foldl_cons]
    have hone : longer best root = best ∨ longer best root = root := by
      unfold longer
      split
      · exact Or.inr rfl
      · exact Or.inl rfl
    rw [List.mem_cons, List.mem_cons]
    rcases List.mem_cons.mp (ih (longer best root)) with heq | hmem
    · rcases hone with hbest | hroot
      · exact Or.inl (heq.trans hbest)
      · exact Or.inr (Or.inl (heq.trans hroot))
    · exact Or.inr (Or.inr hmem)

theorem length_le_foldl_longer (best : String) (roots : List String) :
    ∀ root ∈ best :: roots, root.length ≤ (roots.foldl longer best).length := by
  induction roots generalizing best with
  | nil =>
    intro root hroot
    rw [List.mem_singleton.mp hroot, List.foldl_nil]
  | cons next roots ih =>
    rw [List.foldl_cons]
    have hlonger := ih (longer best next) (longer best next) List.mem_cons_self
    have hboth : best.length ≤ (longer best next).length ∧
        next.length ≤ (longer best next).length := by
      unfold longer
      split <;> omega
    intro root hroot
    rcases List.mem_cons.mp hroot with rfl | hroot
    · omega
    · rcases List.mem_cons.mp hroot with rfl | hroot
      · omega
      · exact ih _ root (List.mem_cons_of_mem _ hroot)

/-- Some root contains the path, at least the scan root, and none that does is longer. -/
theorem owningRoot_spec (hscan : "" ∈ roots) (path : String) :
    owningRoot roots path ∈ roots ∧ containsPath (owningRoot roots path) path = true ∧
      ∀ other ∈ roots, containsPath other path = true →
        other.length ≤ (owningRoot roots path).length := by
  rw [owningRoot_eq_foldl]
  have hmem := foldl_longer_mem "" (roots.filter (containsPath · path))
  have hlongest := length_le_foldl_longer "" (roots.filter (containsPath · path))
  have hfound : (roots.filter (containsPath · path)).foldl longer ""
      ∈ roots.filter (containsPath · path) := by
    rcases List.mem_cons.mp hmem with heq | hfound
    · rw [heq]
      exact List.mem_filter.mpr ⟨hscan, containsPath_scanRoot path⟩
    · exact hfound
  obtain ⟨hroots, hcontains⟩ := List.mem_filter.mp hfound
  refine ⟨hroots, hcontains, fun other hother hpath => ?_⟩
  exact hlongest other (List.mem_cons_of_mem _ (List.mem_filter.mpr ⟨hother, hpath⟩))

/-- A path belongs to the longest root that contains it. -/
theorem owningRoot_eq_iff (hscan : "" ∈ roots) : owningRoot roots path = root ↔
    root ∈ roots ∧ containsPath root path = true ∧
      ∀ other ∈ roots, containsPath other path = true → other.length ≤ root.length := by
  obtain ⟨hmem, hcontains, hlongest⟩ := owningRoot_spec hscan path
  constructor
  · rintro rfl
    exact ⟨hmem, hcontains, hlongest⟩
  · rintro ⟨hroot, hpath, hall⟩
    have hle := hlongest root hroot hpath
    have hge := hall (owningRoot roots path) hmem hcontains
    exact eq_of_containsPath hcontains hpath (by omega)

/-- The root of a path is the only one of its length that contains it, so it is strictly longest. -/
theorem owningRoot_eq_iff_lt (hscan : "" ∈ roots) : owningRoot roots path = root ↔
    root ∈ roots ∧ IsBelow root path ∧
      ∀ other ∈ roots, other ≠ root → IsBelow other path → other.length < root.length := by
  simp only [← containsPath_iff_isBelow]
  rw [owningRoot_eq_iff hscan]
  refine and_congr_right fun _ => and_congr_right fun hroot => forall₂_congr fun other _ => ?_
  constructor
  · intro hle hne hother
    exact lt_of_le_of_ne (hle hother) fun hlength => hne (eq_of_containsPath hother hroot hlength)
  · intro hlt hother
    by_cases heq : other = root
    · rw [heq]
    · exact (hlt heq hother).le

/-! ## The manifests of a workspace -/

/-- The roots of a workspace in ascending order. -/
def workspaceRoots (manifests : List Manifest) : List String :=
  (workspaceManifests manifests).map (·.root)

/-- The manifests of a workspace before they are sorted: those given, and one for the scan root. -/
def withScanRoot (manifests : List Manifest) : List Manifest :=
  if manifests.any (·.root = "") then manifests else manifests ++ [{ root := "" }]

theorem workspaceManifests_eq (manifests : List Manifest) : workspaceManifests manifests
    = Text.dropRepeatsBy (·.root)
      ((withScanRoot manifests).mergeSort fun a b => Text.atMost a.root b.root) := rfl

theorem workspaceManifests_pairwise (manifests : List Manifest) :
    (workspaceManifests manifests).Pairwise fun a b => a.root < b.root := by
  rw [workspaceManifests_eq]
  exact Text.dropRepeatsBy_pairwise (Text.mergeSort_key_pairwise Manifest.root _)

theorem workspaceRoots_pairwise (manifests : List Manifest) :
    (workspaceRoots manifests).Pairwise (· < ·) :=
  List.pairwise_map.mpr (workspaceManifests_pairwise manifests)

theorem workspaceRoots_nodup (manifests : List Manifest) : (workspaceRoots manifests).Nodup :=
  (workspaceRoots_pairwise manifests).imp LT.lt.ne

/-- A root has the first manifest that is given for it. The scan root has one in any case. -/
theorem find?_workspaceManifests (manifests : List Manifest) (root : String) :
    (workspaceManifests manifests).find? (·.root = root)
      = (manifests.find? (·.root = root)).or (if root = "" then some { root := "" } else none) := by
  have hsorted : (workspaceManifests manifests).find? (·.root = root)
      = (withScanRoot manifests).find? (·.root = root) := by
    rw [workspaceManifests_eq, Text.find?_dropRepeatsBy, ← List.head?_filter, ← List.head?_filter,
      Text.filter_mergeSort]
  rw [hsorted]
  unfold withScanRoot
  split
  · rename_i hgiven
    by_cases hroot : root = ""
    · obtain ⟨m, hm, hmroot⟩ := List.any_eq_true.mp hgiven
      rw [hroot, Option.or_of_isSome]
      exact List.find?_isSome.mpr ⟨m, hm, hmroot⟩
    · rw [if_neg hroot, Option.or_none]
  · rw [List.find?_append]
    by_cases hroot : root = ""
    · simp [hroot]
    · simp [hroot, Ne.symm hroot]

/-- The manifest of a root: the first one that is given for it, or one that says nothing. -/
def manifestOf (manifests : List Manifest) (root : String) : Manifest :=
  (manifests.find? (·.root = root)).getD { root := root }

/-- The roots of a workspace are those of its manifests and the scan root. -/
theorem mem_workspaceRoots :
    root ∈ workspaceRoots manifests ↔ root = "" ∨ root ∈ manifests.map (·.root) := by
  have hfound : ∀ list : List Manifest,
      root ∈ list.map (·.root) ↔ (list.find? (·.root = root)).isSome = true := by
    intro list
    rw [List.find?_isSome]
    simp
  rw [workspaceRoots, hfound, hfound, find?_workspaceManifests, Option.isSome_or, Bool.or_eq_true,
    or_comm]
  refine or_congr_left ?_
  split <;> simp [*]

theorem scanRoot_mem_workspaceRoots (manifests : List Manifest) :
    "" ∈ workspaceRoots manifests :=
  mem_workspaceRoots.mpr (Or.inl rfl)

/-- The manifest of a root is the one that the workspace has for it. -/
theorem find?_workspaceManifests_of_mem (hroot : root ∈ workspaceRoots manifests) :
    (workspaceManifests manifests).find? (·.root = root) = some (manifestOf manifests root) := by
  rw [find?_workspaceManifests]
  unfold manifestOf
  cases hfind : manifests.find? (·.root = root) with
  | some m => rfl
  | none =>
    have hgiven : root ∉ manifests.map (·.root) := by
      intro hmem
      obtain ⟨m, hm, hmroot⟩ := List.mem_map.mp hmem
      exact List.find?_eq_none.mp hfind m hm (decide_eq_true hmroot)
    have hscan : root = "" := (mem_workspaceRoots.mp hroot).resolve_right hgiven
    rw [if_pos hscan, hscan]
    rfl

/-- If no two manifests have the same root, their order does not matter. -/
theorem workspaceManifests_eq_of_perm {others : List Manifest}
    (hroots : (manifests.map (·.root)).Nodup) (hperm : manifests.Perm others) :
    workspaceManifests manifests = workspaceManifests others := by
  have hwith : (withScanRoot manifests).Perm (withScanRoot others) := by
    unfold withScanRoot
    rw [hperm.any_eq]
    split
    · exact hperm
    · exact hperm.append_right _
  have hdistinct : ((withScanRoot manifests).map (·.root)).Nodup := by
    unfold withScanRoot
    split
    · exact hroots
    · rename_i hnone
      rw [List.map_append, List.nodup_append']
      refine ⟨hroots, List.nodup_singleton _, ?_⟩
      intro root hgiven hscan
      obtain ⟨m, hm, rfl⟩ := List.mem_map.mp hgiven
      exact hnone (List.any_eq_true.mpr ⟨m, hm, by simpa using hscan⟩)
  rw [workspaceManifests_eq, workspaceManifests_eq, Text.mergeSort_eq_of_perm hdistinct hwith]

/-- Two workspaces with the same roots besides the scan root have the same list of roots. -/
theorem workspaceRoots_congr {others : List Manifest}
    (h : ∀ root, root ≠ "" → (root ∈ manifests.map (·.root) ↔ root ∈ others.map (·.root))) :
    workspaceRoots manifests = workspaceRoots others := by
  refine (workspaceRoots_pairwise manifests).eq_of_mem_iff (workspaceRoots_pairwise others) ?_
  intro root
  rw [mem_workspaceRoots, mem_workspaceRoots]
  by_cases hroot : root = ""
  · simp [hroot]
  · rw [h root hroot]

end ModuleAtlas
