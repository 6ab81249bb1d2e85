import Mathlib.Data.List.Perm.Basic
import ModuleAtlas.Project
import ModuleAtlas.Proofs.Keyed
import ModuleAtlas.Proofs.Text.Sorted
import ModuleAtlas.Proofs.Text.Split

/-!
# Projects of files

A source file is either readable or rejected. The project of some files has the readable ones as its
modules, and each rejected one is listed once with the reason; all other files leave no trace. If no
two files have the same path, the order of the files does not matter.

* `mem_ids_ofFiles`, `ids_ofFiles_perm` : the modules are the readable files.
* `map_path_rejections_perm` : the rejections are those of the rejected files.
* `ofFiles_eq_of_perm`, `rejections_eq_of_perm` : independence of the order.
* `ofFiles_filter_isReadable` : files that are not readable do not change the project.
-/

namespace ModuleAtlas

variable {file : SourceFile} {files others : List SourceFile} {id : String}

/-- A root in front of a path does not matter for its end, if that lies within the last segment. -/
theorem Path.endsWith_under {last : String} (hslash : '/' ∉ last.toList) (root path : String) :
    Text.endsWith last (Path.under root path) = Text.endsWith last path := by
  unfold Path.under
  split
  · rfl
  · exact Text.endsWith_after hslash root path

theorem nodup_map_path_filter (hpaths : (files.map (·.path)).Nodup) (p : SourceFile → Bool) :
    ((files.filter p).map (·.path)).Nodup :=
  hpaths.sublist (List.filter_sublist.map _)

variable [Syntax.Parser]

/-- A text that follows its grammar is read off its syntax tree. -/
theorem extractText_eq_ok_iff {language : Language} {path text : String} {e : Extraction} :
    extractText language path text = .ok e ↔
      (Syntax.parse (dialectOf language path) text).hasError = false ∧
        language.extraction (Syntax.parse (dialectOf language path) text).root text = e := by
  rw [extractText]
  split
  · rename_i herror
    simp [herror]
  · rename_i herror
    simp [Bool.not_eq_true _ ▸ herror]

namespace SourceFile

/-- What is extracted from a file is extracted from its text. -/
theorem extract_eq_ok_iff {e : Extraction} : file.extract = .ok e ↔
    ∃ text, String.fromUTF8? file.content = some text ∧
      extractText file.language file.path text = .ok e := by
  rw [extract]
  cases String.fromUTF8? file.content with
  | none => simp
  | some text =>
    dsimp only
    cases hread : extractText file.language file.path text <;> simp [Except.mapError, hread]

/-- Something that is known of the extraction of a file is known of an extraction. -/
theorem exists_extract_of_map {α : Type} {f : Extraction → α} {a : α}
    (h : file.extract.toOption.map f = some a) : ∃ e, file.extract = .ok e ∧ f e = a := by
  cases hextract : file.extract with
  | error error =>
    rw [hextract] at h
    cases h
  | ok e =>
    rw [hextract] at h
    exact ⟨e, rfl, Option.some.inj h⟩

/-- A source file from which something is extracted. -/
def isReadable (file : SourceFile) : Bool := file.fileClass = .source && file.extract.isOk

theorem isReadable_iff : file.isReadable = true ↔
    file.fileClass = .source ∧ ∃ extraction, file.extract = .ok extraction := by
  rw [isReadable, Bool.and_eq_true, decide_eq_true_eq]
  refine and_congr_right fun _ => ?_
  cases file.extract with
  | ok extraction => exact iff_of_true rfl ⟨extraction, rfl⟩
  | error e =>
    refine iff_of_false Bool.false_ne_true ?_
    rintro ⟨extraction, h⟩
    cases h

/-- A source file from which nothing can be extracted. -/
def isRejected (file : SourceFile) : Bool := file.fileClass = .source && !file.extract.isOk

/-- The language variant of a text shows at the end of its path, so a root in front of the path does
not matter. -/
theorem extractText_under (root path : String) (language : Language) (text : String) :
    extractText language (Path.under root path) text = extractText language path text := by
  have hslash : '/' ∉ ".tsx".toList := by decide
  unfold extractText dialectOf
  rw [Path.endsWith_under hslash]

/-- The same file below another root can be read or not. -/
theorem isOk_extract_under (file : SourceFile) (root path : String) :
    ({ file with path := Path.under root path } : SourceFile).extract.isOk
      = ({ file with path := path } : SourceFile).extract.isOk := by
  simp only [extract, extractText_under]
  cases String.fromUTF8? file.content with
  | none => rfl
  | some text =>
    dsimp only
    cases extractText file.language path text <;> rfl

end SourceFile

namespace Project

open SourceFile (isReadable isRejected)

/-! ## What a file contributes -/

/-- What a source file contributes to the modules of a project. -/
theorem filterMap_factsOf?_sources (files : List SourceFile) :
    (sources files).filterMap factsOf? = (files.filter isReadable).filterMap factsOf? := by
  rw [sources, List.filterMap_filter, List.filterMap_filter]
  refine List.filterMap_congr fun file _ => ?_
  unfold isReadable factsOf?
  by_cases hsource : file.fileClass = .source
  · cases file.extract <;> simp [hsource, Except.isOk, Except.toBool]
  · simp [hsource]

theorem filterMap_rejectionOf?_sources (files : List SourceFile) :
    (sources files).filterMap rejectionOf? = (files.filter isRejected).filterMap rejectionOf? := by
  rw [sources, List.filterMap_filter, List.filterMap_filter]
  refine List.filterMap_congr fun file _ => ?_
  unfold isRejected rejectionOf?
  by_cases hsource : file.fileClass = .source
  · cases file.extract <;> simp [hsource, Except.isOk, Except.toBool]
  · simp [hsource]

theorem map_fst_filterMap_factsOf? (files : List SourceFile) :
    ((files.filter isReadable).filterMap factsOf?).map (·.1)
      = (files.filter isReadable).map (·.path) := by
  rw [List.map_filterMap, ← List.filterMap_eq_map]
  refine List.filterMap_congr fun file hfile => ?_
  have hreadable := (List.mem_filter.mp hfile).2
  unfold isReadable at hreadable
  unfold factsOf?
  cases hextract : file.extract with
  | ok extraction => rfl
  | error error => simp [hextract, Except.isOk, Except.toBool] at hreadable

theorem map_path_filterMap_rejectionOf? (files : List SourceFile) :
    ((files.filter isRejected).filterMap rejectionOf?).map (·.path)
      = (files.filter isRejected).map (·.path) := by
  rw [List.map_filterMap, ← List.filterMap_eq_map]
  refine List.filterMap_congr fun file hfile => ?_
  have hrejected := (List.mem_filter.mp hfile).2
  unfold isRejected at hrejected
  unfold rejectionOf?
  cases hextract : file.extract with
  | ok extraction => simp [hextract, Except.isOk, Except.toBool] at hrejected
  | error error => rfl

/-- Every source file is either readable or rejected. -/
theorem readable_append_rejected_perm (files : List SourceFile) :
    (files.filter isReadable ++ files.filter isRejected).Perm (sources files) := by
  have hsplit : files.filter isReadable ++ files.filter isRejected
      = (sources files).filter (·.extract.isOk) ++ (sources files).filter (!·.extract.isOk) := by
    simp only [sources, List.filter_filter]
    congr 1 <;> refine List.filter_congr fun file _ => ?_
    · rw [isReadable, Bool.and_comm]
    · rw [isRejected, Bool.and_comm]
  rw [hsplit]
  exact List.filter_append_perm _ _

/-! ## Modules -/

theorem ofFiles_eq (files : List SourceFile) :
    ofFiles files = ⟨Keyed.ofList ((files.filter isReadable).filterMap factsOf?)⟩ := by
  rw [ofFiles, filterMap_factsOf?_sources]

/-- Only the readable files make a difference to the project. -/
theorem ofFiles_filter_isReadable (files : List SourceFile) :
    ofFiles (files.filter isReadable) = ofFiles files := by
  simp only [ofFiles_eq, List.filter_filter, Bool.and_self]

/-- The modules are the paths of the readable files. -/
theorem mem_ids_ofFiles : id ∈ (ofFiles files).ids ↔
    ∃ file ∈ files, file.isReadable = true ∧ file.path = id := by
  have hfound : ((ofFiles files).facts? id).isSome
      = (((files.filter isReadable).filterMap factsOf?).map (·.1)).contains id := by
    rw [facts?, ofFiles_eq, Keyed.ofList, Keyed.find?_ofMap,
      ← Std.TreeMap.contains_eq_isSome_getElem?, Std.TreeMap.contains_ofList]
  rw [ids, Keyed.mem_keys_iff, ← Option.isSome_iff_exists, ← facts?, hfound,
    List.contains_iff_mem, map_fst_filterMap_factsOf?, List.mem_map]
  simp only [List.mem_filter, and_assoc]

/-- The modules are named like files. -/
theorem exists_of_mem_ids_ofFiles (hid : id ∈ (ofFiles files).ids) :
    ∃ file ∈ files, file.path = id := by
  obtain ⟨file, hfile, -, hpath⟩ := mem_ids_ofFiles.mp hid
  exact ⟨file, hfile, hpath⟩

theorem factsOf?_pairwise (hpaths : (files.map (·.path)).Nodup) :
    ((files.filter isReadable).filterMap factsOf?).Pairwise fun a b => a.1 ≠ b.1 := by
  rw [← List.pairwise_map (f := Prod.fst), map_fst_filterMap_factsOf?]
  exact nodup_map_path_filter hpaths isReadable

/-- What is known about a module was extracted from a file of that name. -/
theorem exists_of_facts?_ofFiles {facts : Facts} (h : (ofFiles files).facts? id = some facts) :
    ∃ file ∈ files, file.path = id ∧ file.language = facts.language ∧
      file.extract = .ok facts.extraction := by
  rw [facts?, ofFiles_eq] at h
  obtain ⟨file, hfile, hfacts⟩ := List.mem_filterMap.mp (Keyed.mem_of_find?_ofList h)
  refine ⟨file, (List.mem_filter.mp hfile).1, ?_⟩
  rw [factsOf?] at hfacts
  split at hfacts
  · rename_i hextract
    cases hfacts
    exact ⟨rfl, rfl, hextract⟩
  · cases hfacts

/-- If no two files have the same path, what is known about a module was extracted from its file. -/
theorem facts?_ofFiles (hpaths : (files.map (·.path)).Nodup) (hfile : file ∈ files)
    (hsource : file.fileClass = .source) {extraction : Extraction}
    (hextract : file.extract = .ok extraction) :
    (ofFiles files).facts? file.path
      = some { language := file.language, extraction := extraction } := by
  have hreadable : file.isReadable = true :=
    SourceFile.isReadable_iff.mpr ⟨hsource, extraction, hextract⟩
  rw [facts?, Keyed.find?_eq_some_iff, ofFiles_eq, Keyed.mem_entries_ofList (factsOf?_pairwise hpaths),
    List.mem_filterMap]
  refine ⟨file, List.mem_filter.mpr ⟨hfile, hreadable⟩, ?_⟩
  rw [factsOf?, hextract]

/-- If no two files have the same path, the modules are the readable files. -/
theorem ids_ofFiles_perm (hpaths : (files.map (·.path)).Nodup) :
    (ofFiles files).ids.Perm ((files.filter isReadable).map (·.path)) := by
  have hdistinct := factsOf?_pairwise hpaths
  have hentries : (ofFiles files).modules.entries.Perm
      ((files.filter isReadable).filterMap factsOf?) := by
    rw [ofFiles_eq]
    refine (List.perm_ext_iff_of_nodup ?_ ?_).mpr fun entry => Keyed.mem_entries_ofList hdistinct
    · exact (Keyed.keys_nodup _).of_map
    · exact hdistinct.imp fun hne heq => hne (congrArg Prod.fst heq)
  rw [ids, Keyed.keys, ← map_fst_filterMap_factsOf?]
  exact hentries.map _

/-- If no two files have the same path, the order of the files does not matter to the project. -/
theorem ofFiles_eq_of_perm (hpaths : (files.map (·.path)).Nodup) (hperm : files.Perm others) :
    ofFiles files = ofFiles others := by
  have hpaths' : (others.map (·.path)).Nodup := (hperm.map _).nodup_iff.mp hpaths
  rw [ofFiles_eq, ofFiles_eq]
  have hperm := (hperm.filter isReadable).filterMap factsOf?
  apply congrArg Project.mk
  apply Keyed.ext_mem
  intro entry
  rw [Keyed.mem_entries_ofList (factsOf?_pairwise hpaths),
    Keyed.mem_entries_ofList (factsOf?_pairwise hpaths'), hperm.mem_iff]

/-! ## Rejections -/

/-- Without rejected files nothing is rejected. -/
theorem rejections_filter_isReadable (files : List SourceFile) :
    rejections (files.filter isReadable) = [] := by
  have hnone : (files.filter isReadable).filter isRejected = [] := by
    rw [List.filter_filter, List.filter_eq_nil_iff]
    intro file _
    unfold isReadable isRejected
    cases file.extract.isOk <;> simp
  rw [rejections, filterMap_rejectionOf?_sources, hnone, List.filterMap_nil, List.mergeSort_nil]

/-- The rejected files are rejected, each once. -/
theorem map_path_rejections_perm (files : List SourceFile) :
    ((rejections files).map (·.path)).Perm ((files.filter isRejected).map (·.path)) := by
  rw [rejections, filterMap_rejectionOf?_sources, ← map_path_filterMap_rejectionOf?]
  exact (List.mergeSort_perm _ _).map _

/-- If no two files have the same path, the order of the files does not matter to the rejections. -/
theorem rejections_eq_of_perm (hpaths : (files.map (·.path)).Nodup) (hperm : files.Perm others) :
    rejections files = rejections others := by
  rw [rejections, rejections, filterMap_rejectionOf?_sources, filterMap_rejectionOf?_sources]
  refine Text.mergeSort_eq_of_perm ?_ ((hperm.filter isRejected).filterMap rejectionOf?)
  rw [map_path_filterMap_rejectionOf?]
  exact nodup_map_path_filter hpaths isRejected

end Project

end ModuleAtlas
