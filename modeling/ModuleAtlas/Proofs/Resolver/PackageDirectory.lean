import Mathlib.Order.Bounds.Basic
import ModuleAtlas.Proofs.Package
import ModuleAtlas.Proofs.Resolver.Growth

/-!
# Imports of one package lead to one file

An import in a Go module names a directory, be it by a relative path or below the module path
(`NamesDirectory`). It leads to a file exactly if the directory has Go files, and then to the one that
stands for them: the least file that is named like the directory, or else the least of all
(`resolve_go_iff`). So all imports that name a directory lead to the same file, wherever they stand,
and the package of that file is the directory that was named. An import shows what it names.
-/

namespace ModuleAtlas

variable {manifest : Manifest} {importer directory file : String} {i : Import}

/-! ## The directory that an import names -/

namespace Reference

/-- The part below a declared name is empty for the name itself, and else what follows it after a
separator. -/
theorem below?_eq_some_iff {separator : Char} {declared name rest : String} :
    below? separator declared name = some rest ↔
      name = declared ∧ rest = "" ∨ name = declared ++ String.singleton separator ++ rest := by
  rw [below?]
  cases hstrip : Text.stripFront? declared name with
  | none =>
    refine iff_of_false (by simp) ?_
    rintro (⟨rfl, -⟩ | rfl)
    · have hself : Text.stripFront? name name = some "" :=
        Text.stripFront?_eq_some_iff.mpr String.append_empty.symm
      rw [hstrip] at hself
      cases hself
    · have hlonger := Text.stripFront?_eq_some_iff.mpr
        (String.append_assoc : declared ++ String.singleton separator ++ rest = _)
      rw [hstrip] at hlonger
      cases hlonger
  | some tail =>
    obtain rfl : name = declared ++ tail := Text.stripFront?_eq_some_iff.mp hstrip
    have hname : declared ++ tail = declared ↔ tail = "" := by
      rw [← String.toList_inj, String.toList_append, List.append_right_eq_self,
        String.toList_eq_nil_iff]
    have hlonger : declared ++ tail = declared ++ String.singleton separator ++ rest ↔
        tail = String.singleton separator ++ rest := by
      rw [String.append_assoc, ← String.toList_inj, String.toList_append, String.toList_append,
        List.append_cancel_left_eq, String.toList_inj]
    rw [hname, hlonger]
    by_cases htail : tail = ""
    · have hother : "" ≠ String.singleton separator ++ rest := by
        intro hempty
        have hchars := congrArg String.toList hempty
        simp at hchars
      simp [htail, hother, eq_comm]
    · simp only [htail, if_false, false_and, false_or]
      exact Text.stripFront?_eq_some_iff

/-- A Go import names a directory: where its relative path leads, or what follows the module path in
it. The module path itself names the root. -/
inductive NamesDirectory (manifest : Manifest) (importer : String) (i : Import) : String → Prop where
  | relative {there : Path.Destination} (hrelative : i.isRelative = true)
    (hpath : Path.resolve? (Path.parent importer) i.source = some there) :
    NamesDirectory manifest importer i there.path
  | root (habsolute : i.isRelative = false) (hmodule : manifest.goModule = some i.source) :
    NamesDirectory manifest importer i ""
  | below {declared directory : String} (habsolute : i.isRelative = false)
    (hmodule : manifest.goModule = some declared) (hsource : i.source = declared ++ "/" ++ directory) :
    NamesDirectory manifest importer i directory

/-- What an absolute import names. -/
theorem namesDirectory_iff_of_absolute (habsolute : i.isRelative = false) :
    NamesDirectory manifest importer i directory ↔ ∃ declared, manifest.goModule = some declared ∧
      (i.source = declared ∧ directory = "" ∨ i.source = declared ++ "/" ++ directory) := by
  constructor
  · intro hnames
    cases hnames with
    | relative hrelative _ =>
      rw [habsolute] at hrelative
      cases hrelative
    | root _ hmodule => exact ⟨_, hmodule, Or.inl ⟨rfl, rfl⟩⟩
    | below _ hmodule hsource => exact ⟨_, hmodule, Or.inr hsource⟩
  · rintro ⟨declared, hmodule, ⟨rfl, rfl⟩ | hsource⟩
    · exact .root habsolute hmodule
    · exact .below habsolute hmodule hsource

/-- An import refers to the directory that it names. -/
theorem reference_go_eq_package_iff : (∃ hops, reference manifest i importer .go
    = .package directory hops) ↔ NamesDirectory manifest importer i directory := by
  rw [reference, ofPackagePath]
  cases hrelative : i.isRelative with
  | true =>
    rw [if_pos rfl]
    constructor
    · rintro ⟨hops, hreference⟩
      split at hreference
      · rename_i there hthere
        obtain ⟨rfl, -⟩ := package.inj hreference
        exact .relative hrelative hthere
      · cases hreference
    · rintro (⟨-, hthere⟩ | ⟨habsolute, -⟩ | ⟨habsolute, -, -⟩)
      · rw [hthere]
        exact ⟨_, rfl⟩
      · rw [hrelative] at habsolute
        cases habsolute
      · rw [hrelative] at habsolute
        cases habsolute
  | false =>
    rw [if_neg Bool.false_ne_true, namesDirectory_iff_of_absolute hrelative]
    have hbelow : (manifest.goModule.bind fun path => below? '/' path i.source) = some directory ↔
        ∃ declared, manifest.goModule = some declared ∧
          (i.source = declared ∧ directory = "" ∨ i.source = declared ++ "/" ++ directory) := by
      rw [Option.bind_eq_some_iff]
      exact exists_congr fun declared => and_congr_right fun _ => below?_eq_some_iff
    rw [← hbelow]
    cases manifest.goModule.bind fun path => below? '/' path i.source with
    | none => simp
    | some named => simp

/-- An import names one directory at most. -/
theorem NamesDirectory.unique {other : String} (h : NamesDirectory manifest importer i directory)
    (hother : NamesDirectory manifest importer i other) : directory = other := by
  obtain ⟨hops, hreference⟩ := reference_go_eq_package_iff.mpr h
  obtain ⟨more, hreference'⟩ := reference_go_eq_package_iff.mpr hother
  rw [hreference] at hreference'
  exact (package.inj hreference').1

end Reference

open Reference (NamesDirectory reference_go_eq_package_iff namesDirectory_iff_of_absolute)

namespace Resolver

variable {paths : List String}

/-! ## The file that stands for a directory -/

/-- The Go files of a directory. -/
def goPackage (paths : List String) (directory : String) : Set String :=
  {file | file ∈ paths ∧ Text.endsWith ".go" file = true ∧ Path.parent file = directory}

/-- Those of them that are named like the directory, up to the first point. -/
def eponyms (paths : List String) (directory : String) : Set String :=
  {file | file ∈ goPackage paths directory ∧ Path.stem file = Path.fileName directory}

/-- The file that stands for a directory: the least that is named like it, or else the least of all.
-/
def StandsFor (paths : List String) (directory file : String) : Prop :=
  IsLeast (eponyms paths directory) file ∨
    eponyms paths directory = ∅ ∧ IsLeast (goPackage paths directory) file

theorem StandsFor.mem (h : StandsFor paths directory file) : file ∈ goPackage paths directory := by
  rcases h with heponym | ⟨-, hleast⟩
  · exact heponym.1.1
  · exact hleast.1

theorem StandsFor.unique {other : String} (h : StandsFor paths directory file)
    (hother : StandsFor paths directory other) : file = other := by
  rcases h with heponym | ⟨hnone, hleast⟩ <;> rcases hother with heponym' | ⟨hnone', hleast'⟩
  · exact heponym.unique heponym'
  · exact absurd heponym.1 (hnone' ▸ Set.notMem_empty file)
  · exact absurd heponym'.1 (hnone ▸ Set.notMem_empty other)
  · exact hleast.unique hleast'

/-- The first item of an ascending list under a condition is the least. -/
theorem find?_eq_some_iff_isLeast {items : List String} (hitems : items.Pairwise (· < ·))
    {p : String → Bool} : items.find? p = some file ↔
      IsLeast {item | item ∈ items ∧ p item = true} file := by
  have hleast : ∀ first, items.find? p = some first →
      IsLeast {item | item ∈ items ∧ p item = true} first := by
    intro first hfind
    obtain ⟨hfirst, before, after, rfl, hbefore⟩ := List.find?_eq_some_iff_append.mp hfind
    refine ⟨⟨by simp, hfirst⟩, ?_⟩
    rintro item ⟨hitem, hholds⟩
    rcases List.mem_append.mp hitem with hitem | hitem
    · have hfails := hbefore item hitem
      rw [hholds] at hfails
      cases hfails
    · rcases List.mem_cons.mp hitem with rfl | hitem
      · exact le_refl _
      · exact (List.rel_of_pairwise_cons (List.pairwise_append.mp hitems).2.1 hitem).le
  refine ⟨hleast file, fun hfile => ?_⟩
  cases hfind : items.find? p with
  | none => exact absurd hfile.1.2 (List.find?_eq_none.mp hfind file hfile.1.1)
  | some first => rw [(hleast first hfind).unique hfile]

theorem mem_goFilesIn_iff : file ∈ (ofFiles paths manifest).goFilesIn directory ↔
    file ∈ goPackage paths directory :=
  mem_goFilesIn_ofFiles

/-- The file that is chosen for a directory is the one that stands for it. -/
theorem representative?_eq_some_iff :
    (ofFiles paths manifest).representative? directory = some file ↔
      StandsFor paths directory file := by
  have hsorted := goFilesIn_ofFiles_pairwise paths manifest directory
  have heponyms : {file | file ∈ (ofFiles paths manifest).goFilesIn directory ∧
      decide (Path.stem file = Path.fileName directory) = true} = eponyms paths directory := by
    simp only [mem_goFilesIn_iff, decide_eq_true_eq]
    rfl
  have hall : {file | file ∈ (ofFiles paths manifest).goFilesIn directory ∧ true = true}
      = goPackage paths directory := by
    simp only [mem_goFilesIn_iff, and_true]
    rfl
  rw [representative?_eq, Option.or_eq_some_iff, find?_eq_some_iff_isLeast hsorted,
    find?_eq_some_iff_isLeast hsorted, heponyms, hall, StandsFor]
  refine or_congr_right (and_congr_left fun _ => ?_)
  rw [List.find?_eq_none, Set.eq_empty_iff_forall_notMem, ← heponyms]
  simp

/-- A directory with Go files has one that stands for it. -/
theorem exists_standsFor_iff :
    (∃ file, StandsFor paths directory file) ↔ (goPackage paths directory).Nonempty := by
  refine ⟨fun ⟨file, hfile⟩ => ⟨file, hfile.mem⟩, fun ⟨member, hmember⟩ => ?_⟩
  -- the first member of the list is there to be chosen, if no eponym is
  have hsome : ((ofFiles paths {}).representative? directory).isSome = true := by
    rw [representative?_eq, Option.isSome_or, Bool.or_eq_true, List.find?_isSome,
      List.find?_isSome]
    exact Or.inr ⟨member, mem_goFilesIn_iff.mpr hmember, rfl⟩
  obtain ⟨file, hfile⟩ := Option.isSome_iff_exists.mp hsome
  exact ⟨file, representative?_eq_some_iff.mp hfile⟩

/-! ## Where an import leads -/

/-- An import in a Go module leads to a file. -/
def LeadsTo (r : Resolver) (importer : String) (i : Import) (file : String) : Prop :=
  ∃ hops, r.resolve i importer .go = .internal file hops

/-- An import leads to the file that stands for the directory it names. -/
theorem resolve_go_iff : (ofFiles paths manifest).LeadsTo importer i file ↔
    ∃ directory, NamesDirectory manifest importer i directory ∧ StandsFor paths directory file := by
  have hresolve : ∀ hops, (ofFiles paths manifest).resolve i importer .go = .internal file hops ↔
      ∃ directory, reference manifest i importer .go = .package directory hops ∧
        StandsFor paths directory file := by
    intro hops
    rw [resolve_go_eq_internal_iff]
    simp only [representative?_eq_some_iff]
    rfl
  simp only [LeadsTo, hresolve, ← reference_go_eq_package_iff]
  constructor
  · rintro ⟨hops, directory, hreference, hstands⟩
    exact ⟨directory, ⟨hops, hreference⟩, hstands⟩
  · rintro ⟨directory, ⟨hops, hreference⟩, hstands⟩
    exact ⟨hops, directory, hreference, hstands⟩

/-- Whatever directory an import names that leads to a file, the file stands for it. -/
theorem LeadsTo.standsFor (hleads : (ofFiles paths manifest).LeadsTo importer i file)
    (hnames : NamesDirectory manifest importer i directory) : StandsFor paths directory file := by
  obtain ⟨named, hnamed, hfile⟩ := resolve_go_iff.mp hleads
  obtain rfl := hnames.unique hnamed
  exact hfile

/-- An import that is not relative leads to a file if it is below the module path, and there are Go
files in the directory that it names. -/
theorem exists_leadsTo_iff_of_absolute (habsolute : i.isRelative = false) :
    (∃ file, (ofFiles paths manifest).LeadsTo importer i file) ↔ ∃ declared directory,
      manifest.goModule = some declared ∧
      (i.source = declared ∧ directory = "" ∨ i.source = declared ++ "/" ++ directory) ∧
      (goPackage paths directory).Nonempty := by
  simp only [resolve_go_iff, namesDirectory_iff_of_absolute habsolute, ← exists_standsFor_iff]
  constructor
  · rintro ⟨file, directory, ⟨declared, hmodule, hsource⟩, hfile⟩
    exact ⟨declared, directory, hmodule, hsource, file, hfile⟩
  · rintro ⟨declared, directory, hmodule, hsource, file, hfile⟩
    exact ⟨file, directory, ⟨declared, hmodule, hsource⟩, hfile⟩

/-- Every Go import that leads to a file names one directory, and all that name it lead to the file
that stands for it. The members of the package of that file are the Go files of the directory, in
ascending order. An import that is not relative leads to a file exactly if it is the module path or
continues it after a `/`, and the directory that is named has Go files. -/
theorem resolve_go_coherent (paths : List String) (manifest : Manifest) :
    let r := ofFiles paths manifest
    (∀ importer i file, r.LeadsTo importer i file →
      ∃! directory, NamesDirectory manifest importer i directory) ∧
    (∀ importer i file directory, r.LeadsTo importer i file →
      NamesDirectory manifest importer i directory →
      StandsFor paths directory file ∧
      (r.goPackageMembers file).Pairwise (· < ·) ∧
      ∀ member, member ∈ r.goPackageMembers file ↔ member ∈ goPackage paths directory) ∧
    (∀ importer other i j file file' directory,
      r.LeadsTo importer i file → NamesDirectory manifest importer i directory →
      r.LeadsTo other j file' → NamesDirectory manifest other j directory → file = file') ∧
    ∀ importer i, i.isRelative = false →
      ((∃ file, r.LeadsTo importer i file) ↔ ∃ declared directory,
        manifest.goModule = some declared ∧
        (i.source = declared ∧ directory = "" ∨ i.source = declared ++ "/" ++ directory) ∧
        (goPackage paths directory).Nonempty) := by
  intro r
  refine ⟨fun importer i file hleads => ?_, fun importer i file directory hleads hnames => ?_, ?_,
    fun importer i => exists_leadsTo_iff_of_absolute⟩
  · obtain ⟨directory, hnames, -⟩ := resolve_go_iff.mp hleads
    exact ⟨directory, hnames, fun other hother => hother.unique hnames⟩
  · have hfile := hleads.standsFor hnames
    obtain ⟨-, -, hparent⟩ := hfile.mem
    rw [goPackageMembers, hparent]
    exact ⟨hfile, goFilesIn_ofFiles_pairwise paths manifest directory, fun _ => mem_goFilesIn_iff⟩
  · intro importer other i j file file' directory hleads hnames hleads' hnames'
    exact (hleads.standsFor hnames).unique (hleads'.standsFor hnames')

end Resolver

end ModuleAtlas
