import Mathlib.Data.List.Sort
import Mathlib.Data.String.Basic
import ModuleAtlas.Proofs.Resolver

/-!
# Resolving while a project grows

What an import refers to is read off the import alone, as files in an order of preference or as a
package, and so are the steps up. More files can therefore only put a new file in front of the one
that was found (`choice?_of_subset`).

A package is a choice by preference too, though not from a fixed list. Its members are listed in
ascending order, so those of the smaller project are the members of the larger one that were there
before (`goFilesIn_of_subset`), and the file that stands for the package is the first of them under
one condition or else under none.
-/

namespace ModuleAtlas

namespace Resolver

open Std (TreeSet)

variable {paths more : List String} {manifest : Manifest} {directory file : String}

/-! ## First choices -/

/-- With a weaker condition the first item of a list is the same, or one that did not meet the
stronger condition. -/
theorem find?_of_imp {β : Type} {before after : β → Bool}
    (himp : ∀ item, before item = true → after item = true) (items : List β) :
    items.find? after = items.find? before ∨
      ∃ item, items.find? after = some item ∧ before item = false := by
  induction items with
  | nil => exact Or.inl rfl
  | cons item items ih =>
    cases hbefore : before item with
    | true =>
      left
      rw [List.find?_cons_of_pos hbefore, List.find?_cons_of_pos (himp item hbefore)]
    | false =>
      cases hafter : after item with
      | true => exact Or.inr ⟨item, List.find?_cons_of_pos hafter, hbefore⟩
      | false =>
        rw [List.find?_cons_of_neg (Bool.eq_false_iff.mp hafter),
          List.find?_cons_of_neg (Bool.eq_false_iff.mp hbefore)]
        exact ih

/-! ## The members of a package -/

theorem toList_ofList_pairwise (paths : List String) :
    (TreeSet.ofList paths).toList.Pairwise (· < ·) := by
  have hordered : (TreeSet.ofList paths).toList.Pairwise fun a b => compare a b = .lt :=
    TreeSet.ordered_toList
  exact hordered.imp fun h => compareOfLessAndEq_eq_lt.mp h

/-- The files of a package are listed in ascending order. -/
theorem goFilesIn_ofFiles_pairwise (paths : List String) (manifest : Manifest)
    (directory : String) : ((ofFiles paths manifest).goFilesIn directory).Pairwise (· < ·) := by
  have hgo : (ofFiles paths manifest).goFilesIn directory
      = ((TreeSet.ofList paths).toList.filter (Text.endsWith ".go" ·)).filter
          (Path.parent · = directory) := by
    simp only [goFilesIn, ofFiles, List.filter_map, List.map_map]
    exact List.map_id _
  rw [hgo]
  exact ((toList_ofList_pairwise paths).filter _).filter _

/-- With more files, the members of a package that were there before are the old members. -/
theorem goFilesIn_of_subset (h : paths ⊆ more) :
    (ofFiles paths manifest).goFilesIn directory
      = ((ofFiles more manifest).goFilesIn directory).filter (· ∈ paths) := by
  refine (goFilesIn_ofFiles_pairwise paths manifest directory).eq_of_mem_iff
    ((goFilesIn_ofFiles_pairwise more manifest directory).filter _) ?_
  intro file
  rw [List.mem_filter, mem_goFilesIn_ofFiles, mem_goFilesIn_ofFiles, decide_eq_true_eq]
  constructor
  · rintro ⟨hfile, hgo⟩
    exact ⟨⟨h hfile, hgo⟩, hfile⟩
  · rintro ⟨⟨-, hgo⟩, hfile⟩
    exact ⟨hfile, hgo⟩

/-- Both choices among the members of a package are first choices under a condition. -/
theorem representative?_eq (r : Resolver) (directory : String) :
    r.representative? directory
      = ((r.goFilesIn directory).find? fun file => Path.stem file = Path.fileName directory).or
          ((r.goFilesIn directory).find? fun _ => true) := by
  unfold representative?
  cases r.goFilesIn directory <;> rfl

/-- The first old member of a package under a condition is the first one now, or a new file is. -/
theorem find?_goFilesIn_of_subset (h : paths ⊆ more) (manifest : Manifest) (directory : String)
    (wanted : String → Bool) :
    ((ofFiles more manifest).goFilesIn directory).find? wanted
        = ((ofFiles paths manifest).goFilesIn directory).find? wanted ∨
      ∃ file, ((ofFiles more manifest).goFilesIn directory).find? wanted = some file ∧
        file ∉ paths := by
  rw [goFilesIn_of_subset h, List.find?_filter]
  have himp : ∀ file, decide (decide (file ∈ paths) = true ∧ wanted file = true) = true →
      wanted file = true := by
    intro file hboth
    exact (of_decide_eq_true hboth).2
  rcases find?_of_imp himp ((ofFiles more manifest).goFilesIn directory) with
    hsame | ⟨file, hfile, hnew⟩
  · exact Or.inl hsame
  · have hwanted : wanted file = true := List.find?_some hfile
    refine Or.inr ⟨file, hfile, ?_⟩
    simpa [hwanted] using hnew

/-- A package keeps the file that stands for it, or a new file takes its place. -/
theorem representative?_of_subset (h : paths ⊆ more) (manifest : Manifest) (directory : String) :
    (ofFiles more manifest).representative? directory
        = (ofFiles paths manifest).representative? directory ∨
      ∃ file, (ofFiles more manifest).representative? directory = some file ∧ file ∉ paths := by
  rw [representative?_eq, representative?_eq]
  rcases find?_goFilesIn_of_subset h manifest directory
    (fun file => Path.stem file = Path.fileName directory) with hnamed | ⟨file, hfile, hnew⟩
  · rw [hnamed]
    -- the file named like the directory was there before, or neither project has one
    cases ((ofFiles paths manifest).goFilesIn directory).find?
        fun file => Path.stem file = Path.fileName directory with
    | some file => exact Or.inl rfl
    | none =>
      rw [Option.none_or, Option.none_or]
      exact find?_goFilesIn_of_subset h manifest directory _
  · exact Or.inr ⟨file, by rw [hfile, Option.some_or], hnew⟩

/-! ## References -/

/-- With more files, a reference chooses the file it chose before, or a new one. -/
theorem choice?_of_subset (h : paths ⊆ more) (manifest : Manifest) (reference : Reference) :
    (ofFiles more manifest).choice? reference = (ofFiles paths manifest).choice? reference ∨
      ∃ file, (ofFiles more manifest).choice? reference = some file ∧ file ∉ paths := by
  cases reference with
  | outside => exact Or.inl rfl
  | package directory hops => exact representative?_of_subset h manifest directory
  | file candidates hops =>
    have himp : ∀ path, (ofFiles paths manifest).contains path = true →
        (ofFiles more manifest).contains path = true := by
      intro path hpath
      exact contains_ofFiles.mpr (h (contains_ofFiles.mp hpath))
    rcases find?_of_imp himp candidates with hsame | ⟨file, hfile, hnew⟩
    · exact Or.inl hsame
    · refine Or.inr ⟨file, hfile, fun hold => ?_⟩
      rw [contains_ofFiles.mpr hold] at hnew
      cases hnew

/-- With more files, a reference leads where it led before, or to a new file. -/
theorem locate_of_subset (h : paths ⊆ more) (manifest : Manifest) (reference : Reference) :
    (ofFiles more manifest).locate reference = (ofFiles paths manifest).locate reference ∨
      ∃ file, (ofFiles more manifest).locate reference = .internal file reference.hops ∧
        file ∉ paths := by
  rcases choice?_of_subset h manifest reference with hsame | ⟨file, hfile, hnew⟩
  · left
    rw [locate_eq, locate_eq, hsame]
  · refine Or.inr ⟨file, ?_, hnew⟩
    rw [locate_eq, hfile, Option.elim_some]

/-! ## One more file -/

/-- When a project grows by one file, every import leads where it led before, or to that file after
the same steps up. So a file can be removed without changing any import but those that lead to it,
and no import that led to a module leads out of the project when files are added. -/
theorem resolve_grown (hmore : ∀ path, path ∈ more ↔ path = file ∨ path ∈ paths)
    (manifest : Manifest) (i : Import) (importer : String) (language : Language) :
    let before := (ofFiles paths manifest).resolve i importer language
    let after := (ofFiles more manifest).resolve i importer language
    (after = before ∨ ∃ hops, after = .internal file hops ∧
      ∀ old steps, before = .internal old steps → steps = hops) ∧
    (after.target? ≠ some file → before = after) ∧
    (before ≠ .external → after ≠ .external) := by
  intro before after
  have hsubset : paths ⊆ more := fun path hpath => (hmore path).mpr (Or.inr hpath)
  have hstable : after = before ∨ ∃ hops, after = .internal file hops ∧
      ∀ old steps, before = .internal old steps → steps = hops := by
    rcases locate_of_subset hsubset manifest (reference manifest i importer language) with
      hsame | ⟨found, hfound, hnew⟩
    · exact Or.inl hsame
    · have hmem : found ∈ more := mem_of_locate (congrArg Resolution.target? hfound)
      obtain rfl : found = file := ((hmore found).mp hmem).resolve_right hnew
      exact Or.inr ⟨_, hfound, fun old steps hold => hops_of_locate hold⟩
  refine ⟨hstable, fun htarget => ?_, fun hbefore => ?_⟩
  · rcases hstable with hsame | ⟨hops, hafter, -⟩
    · exact hsame.symm
    · exact absurd (congrArg Resolution.target? hafter) htarget
  · rcases hstable with hsame | ⟨hops, hafter, -⟩
    · rwa [hsame]
    · rw [hafter]
      exact Resolution.noConfusion

/-- A package gets a file with the name of its directory. An import of the package leads there now,
and an import of the other file leads where it led before. -/
theorem resolve_grown_package :
    let before := (ofFiles ["pkg/a.go"] {}).resolve
    let after := (ofFiles ["pkg/a.go", "pkg/pkg.go"] {}).resolve
    let package : Import := { source := "./pkg" }
    let single : Import := { source := "./pkg/a.go" }
    (∀ path, path ∈ ["pkg/a.go", "pkg/pkg.go"] ↔ path = "pkg/pkg.go" ∨ path ∈ ["pkg/a.go"]) ∧
    before package "main.go" .go = .internal "pkg/a.go" 0 ∧
    after package "main.go" .go = .internal "pkg/pkg.go" 0 ∧
    before package "main.go" .go ≠ .external ∧ after package "main.go" .go ≠ .external ∧
    (after single "main.ts" .typeScript).target? ≠ some "pkg/pkg.go" ∧
    before single "main.ts" .typeScript = after single "main.ts" .typeScript := by
  intro before after package single
  have hmore : ∀ path, path ∈ ["pkg/a.go", "pkg/pkg.go"] ↔
      path = "pkg/pkg.go" ∨ path ∈ ["pkg/a.go"] := by
    intro path
    simp [or_comm]
  have hbefore : before package "main.go" .go = .internal "pkg/a.go" 0 := by decide
  have hafter : after package "main.go" .go = .internal "pkg/pkg.go" 0 := by decide
  have hinternal : before package "main.go" .go ≠ .external := by
    rw [hbefore]
    exact Resolution.noConfusion
  have htarget : (after single "main.ts" .typeScript).target? ≠ some "pkg/pkg.go" := by decide
  obtain ⟨-, -, hkept⟩ := resolve_grown hmore {} package "main.go" .go
  obtain ⟨-, hsame, -⟩ := resolve_grown hmore {} single "main.ts" .typeScript
  exact ⟨hmore, hbefore, hafter, hinternal, hkept hinternal, htarget, hsame htarget⟩

end Resolver

end ModuleAtlas
