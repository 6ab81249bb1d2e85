import ModuleAtlas.Resolver

/-!
# Resolving finds files of the project only

A reference leads to the file that it chooses among the files of the project, after the steps up that
it makes itself (`locate_eq_internal_iff`). Whatever an import refers to, and in whichever language it
is written, it leads to one of the files that the resolver was made of or out of the project
(`mem_of_resolve`). The members of a Go package are the files of its directory that end in `.go`.
-/

namespace ModuleAtlas

namespace Resolution

variable {resolution : Resolution} {target : String}

theorem target?_eq_none_iff : resolution.target? = none ↔ resolution = .external := by
  cases resolution <;> simp [target?]

theorem target?_eq_some_iff : resolution.target? = some target ↔
    ∃ hops, resolution = .internal target hops := by
  cases resolution <;> simp [target?]

end Resolution

/-- The steps up that a reference makes. -/
def Reference.hops : Reference → Nat
  | .file _ hops => hops
  | .package _ hops => hops
  | .outside => 0

namespace Resolver

variable {paths : List String} {manifest : Manifest} {r : Resolver} {path file directory : String}

theorem contains_ofFiles : (ofFiles paths manifest).contains path = true ↔ path ∈ paths := by
  rw [contains, ofFiles, Std.TreeSet.contains_ofList, List.contains_iff_mem]

/-! ## Go packages -/

theorem mem_goFilesIn_ofFiles : file ∈ (ofFiles paths manifest).goFilesIn directory ↔
    file ∈ paths ∧ Text.endsWith ".go" file = true ∧ Path.parent file = directory := by
  have hmem : ∀ path, path ∈ (Std.TreeSet.ofList paths).toList ↔ path ∈ paths := by
    intro path
    rw [Std.TreeSet.mem_toList, Std.TreeSet.mem_ofList, List.contains_iff_mem]
  simp only [goFilesIn, ofFiles, List.filter_map, List.map_map, List.mem_map, List.mem_filter, hmem]
  constructor
  · rintro ⟨_, ⟨⟨hpath, hgo⟩, hdir⟩, rfl⟩
    exact ⟨hpath, hgo, of_decide_eq_true hdir⟩
  · rintro ⟨hpath, hgo, hdir⟩
    exact ⟨file, ⟨⟨hpath, hgo⟩, decide_eq_true hdir⟩, rfl⟩

/-- The file that stands for a package is one of its files. -/
theorem mem_goFilesIn_of_representative? (h : r.representative? directory = some file) :
    file ∈ r.goFilesIn directory := by
  rw [representative?, Option.or_eq_some_iff] at h
  rcases h with hnamed | ⟨-, hhead⟩
  · exact List.mem_of_find?_eq_some hnamed
  · exact List.mem_of_head? hhead

/-! ## Any import -/

/-- The file of the project that a reference chooses. -/
def choice? (r : Resolver) : Reference → Option String
  | .file candidates _ => candidates.find? r.contains
  | .package directory _ => r.representative? directory
  | .outside => none

/-- A reference leads to the file it chooses, after the steps up that it makes itself. -/
theorem locate_eq (r : Resolver) (reference : Reference) : r.locate reference
    = (r.choice? reference).elim .external (.internal · reference.hops) := by
  cases reference with
  | outside => rfl
  | file candidates hops =>
    simp only [locate, choice?]
    cases candidates.find? r.contains <;> rfl
  | package directory hops =>
    simp only [locate, choice?]
    cases r.representative? directory <;> rfl

/-- A reference leads to the file it chooses and nowhere else. -/
theorem locate_eq_internal_iff {reference : Reference} {hops : Nat} :
    r.locate reference = .internal file hops ↔
      r.choice? reference = some file ∧ hops = reference.hops := by
  rw [locate_eq]
  cases r.choice? reference with
  | none => simp
  | some found => simp [eq_comm]

theorem hops_of_locate {reference : Reference} {hops : Nat}
    (h : r.locate reference = .internal file hops) : hops = reference.hops :=
  (locate_eq_internal_iff.mp h).2

/-- A reference chooses one of the files, or none. -/
theorem mem_of_choice? {reference : Reference}
    (h : (ofFiles paths manifest).choice? reference = some file) : file ∈ paths := by
  cases reference with
  | outside => cases h
  | file candidates hops => exact contains_ofFiles.mp (List.find?_some h)
  | package directory hops =>
    exact (mem_goFilesIn_ofFiles.mp (mem_goFilesIn_of_representative? h)).1

theorem mem_of_locate {reference : Reference}
    (h : ((ofFiles paths manifest).locate reference).target? = some file) : file ∈ paths := by
  obtain ⟨hops, hlocate⟩ := Resolution.target?_eq_some_iff.mp h
  exact mem_of_choice? (locate_eq_internal_iff.mp hlocate).1

/-- An import in any file and language leads to one of the files, or out of the project. -/
theorem mem_of_resolve {i : Import} {importer : String} {language : Language}
    (h : ((ofFiles paths manifest).resolve i importer language).target? = some file) :
    file ∈ paths :=
  mem_of_locate h

end Resolver

end ModuleAtlas
