import ModuleAtlas.Proofs.FileTree
import ModuleAtlas.Proofs.Text.Bytes
import ModuleAtlas.Proofs.Workspace.Root

/-!
# What is found in a tree

Discovery takes up exactly the files that are a source by their names and that lie in no directory
that is skipped, and it finds the roots of projects exactly where there is a manifest file
(`discover_isExact`). A manifest file is no source, whatever its extension. Since the roots are just
those directories, the longest root that contains a file is the nearest directory around it with a
manifest file.

The walk meets the files in the order of the directories, and the results are in the order of whole
paths; nothing here depends on the first one.
-/

namespace ModuleAtlas

variable {settings : ScanSettings} {tree : FileTree} {path name text : String} {language : Language}
  {content : ByteArray} {above : List String} {entries : List (String × FileTree)}

/-! ## Names -/

/-- A directory below the scan root that is not entered: it is hidden, or the settings name it. -/
def ScanSettings.Skips (settings : ScanSettings) (name : String) : Prop :=
  name.toList.head? = some '.' ∨ name ∈ settings.skipDirs

instance (settings : ScanSettings) : DecidablePred settings.Skips := fun _ =>
  inferInstanceAs (Decidable (_ ∨ _))

theorem ScanSettings.enters_iff : settings.enters name = true ↔ ¬ settings.Skips name := by
  have hhidden : Text.startsWith "." name = true ↔ name.toList.head? = some '.' := by
    rw [Text.startsWith, Option.isSome_iff_exists]
    simp only [Text.dropFront?_eq_some_iff]
    cases name.toList <;> simp
  simp [ScanSettings.enters, ScanSettings.Skips, ← hhidden]

/-- The last point of a name has something before it, and the extension stands after it. -/
def Path.HasExtension (name extension : String) : Prop :=
  ∃ stem, stem ≠ "" ∧ '.' ∉ extension.toList ∧ name = stem ++ "." ++ extension

theorem Path.extension?_eq_some_iff {extension : String} :
    Path.extension? path = some extension ↔ Path.HasExtension (Path.fileName path) extension := by
  have hjoin := Text.join_split '.' (Path.fileName path)
  unfold Path.extension? Path.HasExtension
  constructor
  · intro h
    simp only [ite_eq_iff, reduceCtorEq, and_false, false_or] at h
    obtain ⟨hstem, hlast⟩ := h
    have hparts := List.dropLast_append_getLast? _ hlast
    have hne : (Text.split '.' (Path.fileName path)).dropLast ≠ [] := by
      intro hnil
      rw [hnil] at hstem
      exact hstem rfl
    refine ⟨_, hstem, Text.not_mem_of_mem_split (List.mem_of_getLast? hlast), ?_⟩
    rw [← hparts, Text.join_append _ hne (by simp)] at hjoin
    exact hjoin.symm
  · rintro ⟨stem, hstem, hpoint, hname⟩
    have hsplit : Text.split '.' (Path.fileName path) = Text.split '.' stem ++ [extension] := by
      rw [hname, ← Text.split_of_not_mem hpoint]
      exact Text.split_append '.' stem extension
    have hbefore : Text.join "." (Text.split '.' stem) = stem := Text.join_split '.' stem
    simp only [hsplit, List.dropLast_concat, hbefore, if_neg hstem, List.getLast?_concat]

theorem ManifestFile.mem_every (file : ManifestFile) : file ∈ ManifestFile.every := by
  cases file <;> decide

theorem ManifestFile.isSome_ofPath?_iff :
    (ManifestFile.ofPath? path).isSome = true ↔
      ∃ file : ManifestFile, file.name = Path.fileName path := by
  rw [ManifestFile.ofPath?, ManifestFile.ofName?, List.find?_isSome]
  simp [ManifestFile.mem_every]

/-- The language of a source is told by the extension of its name, unless the name is that of a
manifest file. -/
theorem sourceLanguage?_eq_some_iff : sourceLanguage? path = some language ↔
    (∀ file : ManifestFile, file.name ≠ Path.fileName path) ∧
      ∃ extension, Path.HasExtension (Path.fileName path) extension ∧
        Language.ofExtension? extension = some language := by
  unfold sourceLanguage?
  by_cases hmanifest : (ManifestFile.ofPath? path).isSome = true
  · rw [if_pos hmanifest]
    obtain ⟨file, hfile⟩ := ManifestFile.isSome_ofPath?_iff.mp hmanifest
    exact iff_of_false (by simp) fun h => h.1 file hfile
  · rw [if_neg hmanifest, Option.bind_eq_some_iff]
    rw [ManifestFile.isSome_ofPath?_iff, not_exists] at hmanifest
    simp only [Path.extension?_eq_some_iff]
    exact (and_iff_right hmanifest).symm

/-! ## Sources and manifests of a tree -/

/-- There is a source of a language in a tree: a file with its name in a directory that the scan
comes to. The directory is given by the names on the way to it. -/
structure FileTree.HasSource (tree : FileTree) (settings : ScanSettings) (above : List String)
    (name : String) (language : Language) (content : ByteArray) : Prop where
  file_at : tree.At (above ++ [name]) (.file content)
  entered : ∀ directory ∈ above, ¬ settings.Skips directory
  no_manifest : ∀ file : ManifestFile, file.name ≠ name
  extension : ∃ extension, Path.HasExtension name extension ∧
    Language.ofExtension? extension = some language

/-- A directory of a tree has a manifest file among its entries. -/
def FileTree.HasManifest (tree : FileTree) (above : List String) : Prop :=
  ∃ (file : ManifestFile) (content : ByteArray), tree.At (above ++ [file.name]) (.file content)

/-- What is kept of a source. A large one is excluded, and its content is not read. -/
def ScanSettings.record (settings : ScanSettings) (path : String) (language : Language)
    (content : ByteArray) : SourceFile :=
  if settings.maxFileBytes < content.size then ⟨path, language, ByteArray.empty, .excluded⟩
  else ⟨path, language, content, classify path language content⟩

theorem ScanSettings.path_record (settings : ScanSettings) (path : String) (language : Language)
    (content : ByteArray) : (settings.record path language content).path = path := by
  unfold ScanSettings.record
  split <;> rfl

theorem sourceFile?_eq_some_iff {file : SourceFile} :
    sourceFile? settings path content = some file ↔
      ∃ language, sourceLanguage? path = some language ∧
        file = settings.record path language content := by
  rw [sourceFile?, Option.map_eq_some_iff]
  simp only [eq_comm (a := file)]
  rfl

theorem path_of_sourceFile? {file : SourceFile} (h : sourceFile? settings path content = some file) :
    file.path = path := by
  obtain ⟨language, -, rfl⟩ := sourceFile?_eq_some_iff.mp h
  exact settings.path_record path language content

/-- The nearest of the directories around a file that has a manifest file, or else the scan root. -/
structure FileTree.IsNearestRoot (tree : FileTree) (above root : List String) : Prop where
  around : root <+: above
  manifest : root = [] ∨ tree.HasManifest root
  nearest : ∀ other, other <+: above → tree.HasManifest other → other <+: root

/-! ## Files of a walk -/

/-- The files of a walk through a directory lie in directories that are entered. -/
theorem mem_filesFrom_root_iff {file : String × ByteArray}
    (htree : (FileTree.directory entries).WellFormed) :
    file ∈ (FileTree.directory entries).filesFrom settings.enters "" ↔
      ∃ above name, (FileTree.directory entries).At (above ++ [name]) (.file file.2) ∧
        (∀ directory ∈ above, ¬ settings.Skips directory) ∧
          file.1 = Text.join "/" (above ++ [name]) := by
  have hroot : file ∈ (FileTree.directory entries).filesFrom settings.enters (Text.join "/" []) ↔ _ :=
    FileTree.mem_filesFrom_iff htree (by simp)
  simp only [ScanSettings.enters_iff, List.nil_append] at hroot
  refine hroot.trans ⟨?_, ?_⟩
  · rintro ⟨names, hat, henters, hpath⟩
    cases names using List.reverseRecOn with
    | nil => cases hat
    | append_singleton above name =>
      rw [List.dropLast_concat] at henters
      exact ⟨above, name, hat, henters, hpath⟩
  · rintro ⟨above, name, hat, henters, hpath⟩
    exact ⟨above ++ [name], hat, by rwa [List.dropLast_concat], hpath⟩

/-! ## Manifests -/

theorem Manifest.root_applyFile (manifest : Manifest) (path : String) (content : ByteArray) :
    (manifest.applyFile path content).root = manifest.root := by
  unfold Manifest.applyFile Manifest.apply
  grind

theorem root_manifestAt (files : List (String × ByteArray)) (root : String) :
    (manifestAt files root).root = root := by
  unfold manifestAt
  refine List.foldlRecOn (motive := fun m : Manifest => m.root = root) _ _ rfl ?_
  intro manifest hroot file _
  rw [Manifest.root_applyFile, hroot]

theorem map_root_manifests_discover (tree : FileTree) (settings : ScanSettings) :
    (discover tree settings).manifests.map (·.root)
      = projectRoots (tree.filesFrom settings.enters "") := by
  rw [discover, List.map_map]
  exact List.map_id'' (root_manifestAt _) _

/-- A project root other than the scan root is a directory that is entered and has a manifest
file. -/
theorem mem_projectRoots_iff {root : String}
    (htree : (FileTree.directory entries).WellFormed) :
    root ∈ projectRoots ((FileTree.directory entries).filesFrom settings.enters "") ↔
      root = "" ∨ ∃ above, (FileTree.directory entries).HasManifest above ∧
        (∀ directory ∈ above, ¬ settings.Skips directory) ∧ root = Text.join "/" above := by
  rw [projectRoots, Text.mem_sortedUnique, List.mem_cons, List.mem_map]
  refine or_congr_right ⟨?_, ?_⟩
  · rintro ⟨file, hfile, rfl⟩
    obtain ⟨hfile, hmanifest⟩ := List.mem_filter.mp hfile
    obtain ⟨above, name, hat, hentered, hpath⟩ := (mem_filesFrom_root_iff htree).mp hfile
    have hslash := hat.slash_not_mem htree
    obtain ⟨manifest, hname⟩ := ManifestFile.isSome_ofPath?_iff.mp hmanifest
    rw [hpath, Path.fileName_join hslash] at hname
    refine ⟨above, ⟨manifest, file.2, by rwa [hname]⟩, hentered, ?_⟩
    rw [hpath, Path.parent_join hslash, List.dropLast_concat]
  · rintro ⟨above, ⟨manifest, content, hat⟩, hentered, rfl⟩
    have hslash := hat.slash_not_mem htree
    refine ⟨(Text.join "/" (above ++ [manifest.name]), content), ?_, ?_⟩
    · refine List.mem_filter.mpr ⟨(mem_filesFrom_root_iff htree).mpr ?_, ?_⟩
      · exact ⟨above, manifest.name, hat, hentered, rfl⟩
      · exact ManifestFile.isSome_ofPath?_iff.mpr ⟨manifest, (Path.fileName_join hslash).symm⟩
    · rw [Path.parent_join hslash, List.dropLast_concat]

/-! ## Sources -/

/-- The files found are the records of the sources. -/
theorem mem_files_discover_iff {file : SourceFile}
    (htree : (FileTree.directory entries).WellFormed) :
    file ∈ (discover (.directory entries) settings).files ↔
      ∃ above name language content,
        (FileTree.directory entries).HasSource settings above name language content ∧
          file = settings.record (Text.join "/" (above ++ [name])) language content := by
  rw [discover, List.mem_mergeSort, List.mem_filterMap]
  constructor
  · rintro ⟨⟨path, content⟩, hfile, hsource⟩
    obtain ⟨above, name, hat, hentered, rfl⟩ := (mem_filesFrom_root_iff htree).mp hfile
    obtain ⟨language, hlanguage, rfl⟩ := sourceFile?_eq_some_iff.mp hsource
    rw [sourceLanguage?_eq_some_iff, Path.fileName_join (hat.slash_not_mem htree)] at hlanguage
    exact ⟨above, name, language, content, ⟨hat, hentered, hlanguage.1, hlanguage.2⟩, rfl⟩
  · rintro ⟨above, name, language, content, hsource, rfl⟩
    have hslash := hsource.file_at.slash_not_mem htree
    refine ⟨(Text.join "/" (above ++ [name]), content), (mem_filesFrom_root_iff htree).mpr ?_,
      sourceFile?_eq_some_iff.mpr ⟨language, sourceLanguage?_eq_some_iff.mpr ?_, rfl⟩⟩
    · exact ⟨above, name, hsource.file_at, hsource.entered, rfl⟩
    · rw [Path.fileName_join hslash]
      exact ⟨hsource.no_manifest, hsource.extension⟩

/-- The files found are in strictly ascending order of their paths. -/
theorem files_discover_pairwise (htree : (FileTree.directory entries).WellFormed)
    (settings : ScanSettings) :
    (discover (.directory entries) settings).files.Pairwise fun a b => a.path < b.path := by
  have hwalk : (((FileTree.directory entries).filesFrom settings.enters "").map (·.1)).Nodup :=
    FileTree.filesFrom_paths_nodup settings.enters htree (List.forall_mem_nil _)
  have hpaths : (discover (.directory entries) settings).files.Pairwise
      fun a b => a.path ≠ b.path := by
    refine ((List.mergeSort_perm _ _).pairwise_iff fun h => h.symm).mpr ?_
    refine List.pairwise_filterMap.mpr ((List.pairwise_map.mp hwalk).imp ?_)
    intro a b hne filea ha fileb hb
    rwa [path_of_sourceFile? ha, path_of_sourceFile? hb]
  have hsorted : (discover (.directory entries) settings).files.Pairwise
      fun a b => a.path ≤ b.path := Text.mergeSort_key_pairwise SourceFile.path _
  exact (hsorted.and hpaths).imp fun h => lt_of_le_of_ne h.1 h.2

/-! ## The nearest root -/

theorem FileTree.exists_isNearestRoot (tree : FileTree) (above : List String) :
    ∃ root, tree.IsNearestRoot above root := by
  induction above using List.reverseRecOn with
  | nil => exact ⟨[], List.prefix_rfl, Or.inl rfl, fun other hother _ => hother⟩
  | append_singleton above name ih =>
    by_cases hmanifest : tree.HasManifest (above ++ [name])
    · exact ⟨above ++ [name], List.prefix_rfl, Or.inr hmanifest, fun other hother _ => hother⟩
    · obtain ⟨root, hroot⟩ := ih
      refine ⟨root, hroot.around.trans (List.prefix_append _ _), hroot.manifest, ?_⟩
      intro other hother hfile
      rcases List.prefix_concat_iff.mp hother with rfl | hother
      · exact absurd hfile hmanifest
      · exact hroot.nearest other hother hfile

/-- The directories that contain a file are those on the way to it. -/
theorem containsPath_join_iff (hnames : ∀ segment ∈ above ++ [name], FileTree.IsEntryName segment)
    {root : List String} (hroot : ∀ segment ∈ root, FileTree.IsEntryName segment) :
    containsPath (Text.join "/" root) (Text.join "/" (above ++ [name])) = true ↔ root <+: above := by
  rw [containsPath_iff]
  constructor
  · rintro ⟨rest, hpath⟩
    by_cases hnil : root = []
    · rw [hnil]
      exact List.nil_prefix
    have hne := Path.join_ne_empty hnil fun segment hsegment => (hroot segment hsegment).1
    rw [Path.under, if_neg hne] at hpath
    have happend : ∀ front, Path.segments (front ++ "/" ++ rest)
        = Path.segments front ++ Path.segments rest := fun front => Text.split_append '/' front rest
    have hsegments := congrArg Path.segments hpath
    rw [happend, Path.segments_join (by simp) fun segment hsegment => (hnames segment hsegment).2,
      Path.segments_join hnil fun segment hsegment => (hroot segment hsegment).2] at hsegments
    refine List.prefix_of_prefix_length_le ⟨_, hsegments.symm⟩ (List.prefix_append _ _) ?_
    have hlength := congrArg List.length hsegments
    have hrest := List.length_pos_of_ne_nil (Path.segments_ne_nil rest)
    simp only [List.length_append, List.length_singleton] at hlength
    omega
  · rintro ⟨inner, rfl⟩
    refine ⟨Text.join "/" (inner ++ [name]), ?_⟩
    rw [List.append_assoc, Path.under]
    by_cases hnil : root = []
    · rw [hnil]
      rfl
    · have hne := Path.join_ne_empty hnil fun segment hsegment => (hroot segment hsegment).1
      rw [if_neg hne, Text.join_append "/" hnil (by simp)]

/-- The root to which a source belongs is the nearest directory around it with a manifest file. -/
theorem owningRoot_discover {root : List String}
    (htree : (FileTree.directory entries).WellFormed)
    (hsource : (FileTree.directory entries).HasSource settings above name language content)
    (hroot : (FileTree.directory entries).IsNearestRoot above root) :
    owningRoot (workspaceRoots (discover (.directory entries) settings).manifests)
      (Text.join "/" (above ++ [name])) = Text.join "/" root := by
  have hnames := hsource.file_at.isEntryName htree
  have habove : ∀ {front : List String}, front <+: above →
      ∀ segment ∈ front, FileTree.IsEntryName segment := fun hfront segment hsegment =>
    hnames segment (List.mem_append_left _ (hfront.subset hsegment))
  have hroots : ∀ text, text ∈ workspaceRoots (discover (.directory entries) settings).manifests ↔
      text = "" ∨ ∃ dirs, (FileTree.directory entries).HasManifest dirs ∧
        (∀ directory ∈ dirs, ¬ settings.Skips directory) ∧ text = Text.join "/" dirs := by
    intro text
    rw [mem_workspaceRoots, map_root_manifests_discover, mem_projectRoots_iff htree, or_self_left]
  refine (owningRoot_eq_iff (scanRoot_mem_workspaceRoots _)).mpr ⟨(hroots _).mpr ?_, ?_, ?_⟩
  · rcases hroot.manifest with rfl | hmanifest
    · exact Or.inl rfl
    · refine Or.inr ⟨root, hmanifest, fun directory hdirectory => ?_, rfl⟩
      exact hsource.entered directory (hroot.around.subset hdirectory)
  · exact (containsPath_join_iff hnames (habove hroot.around)).mpr hroot.around
  · intro other hother hcontains
    rcases (hroots other).mp hother with rfl | ⟨dirs, hmanifest, -, rfl⟩
    · exact Nat.zero_le _
    · obtain ⟨manifest, content, hat⟩ := hmanifest
      have hdirs : ∀ segment ∈ dirs, FileTree.IsEntryName segment := fun segment hsegment =>
        hat.isEntryName htree segment (List.mem_append_left _ hsegment)
      have haround := (containsPath_join_iff hnames hdirs).mp hcontains
      exact Text.length_join_le_of_prefix "/" (hroot.nearest dirs haround ⟨manifest, content, hat⟩)

/-! ## Discovery as a whole -/

/-- What was found in a tree is exactly what there is to be found. -/
structure Discovery.IsExact (found : Discovery) (tree : FileTree) (settings : ScanSettings) :
    Prop where
  /-- by the bytes of their paths, so that no path occurs twice -/
  files_ascending : found.files.Pairwise fun a b => Text.bytes a.path < Text.bytes b.path
  /-- the files found are the records of the sources -/
  mem_files : ∀ file, file ∈ found.files ↔ ∃ above name language content,
    tree.HasSource settings above name language content ∧
      file = settings.record (Text.join "/" (above ++ [name])) language content
  /-- no two sources share a record -/
  sources_distinct : ∀ {above name language content above' name' language' content'},
    tree.HasSource settings above name language content →
      tree.HasSource settings above' name' language' content' →
        Text.join "/" (above ++ [name]) = Text.join "/" (above' ++ [name']) →
          above = above' ∧ name = name' ∧ language = language' ∧ content = content'
  roots_ascending : found.manifests.Pairwise fun a b => Text.bytes a.root < Text.bytes b.root
  /-- the roots are the scan root and the directories with a manifest file -/
  mem_roots : ∀ root, root ∈ found.manifests.map (·.root) ↔ root = "" ∨ ∃ above,
    tree.HasManifest above ∧ (∀ directory ∈ above, ¬ settings.Skips directory) ∧
      root = Text.join "/" above
  /-- a workspace counts a source to the nearest root -/
  owner : ∀ {above name language content}, tree.HasSource settings above name language content →
    ∃ root, tree.IsNearestRoot above root ∧
      owningRoot (workspaceRoots found.manifests) (Text.join "/" (above ++ [name]))
        = Text.join "/" root

/-- The path of a source tells everything about it. -/
theorem FileTree.HasSource.eq_of_path {above' : List String} {name' : String} {language' : Language}
    {content' : ByteArray} (htree : tree.WellFormed)
    (h : tree.HasSource settings above name language content)
    (h' : tree.HasSource settings above' name' language' content')
    (hpath : Text.join "/" (above ++ [name]) = Text.join "/" (above' ++ [name'])) :
    above = above' ∧ name = name' ∧ language = language' ∧ content = content' := by
  have hnames := FileTree.join_injective (h.file_at.isEntryName htree)
    (h'.file_at.isEntryName htree) hpath
  obtain ⟨rfl, hname⟩ := List.append_inj' hnames rfl
  obtain rfl : name = name' := List.singleton_inj.mp hname
  have hcontent := h.file_at.unique htree h'.file_at
  rw [FileTree.file.injEq] at hcontent
  refine ⟨rfl, rfl, ?_, hcontent⟩
  -- both languages are read off the one name
  have hfile : Path.fileName (Text.join "/" ([] ++ [name])) = name :=
    Path.fileName_join fun segment hsegment =>
      h.file_at.slash_not_mem htree segment (List.mem_append_right _ hsegment)
  have hfile : Path.fileName name = name := hfile
  have hlanguage : sourceLanguage? name = some language := by
    rw [sourceLanguage?_eq_some_iff, hfile]
    exact ⟨h.no_manifest, h.extension⟩
  have hlanguage' : sourceLanguage? name = some language' := by
    rw [sourceLanguage?_eq_some_iff, hfile]
    exact ⟨h'.no_manifest, h'.extension⟩
  exact Option.some.inj (hlanguage.symm.trans hlanguage')

/-- Discovery finds exactly the sources of a tree and the roots of its projects, and each source
belongs to the nearest root. -/
theorem discover_isExact (htree : (FileTree.directory entries).WellFormed)
    (settings : ScanSettings) :
    (discover (.directory entries) settings).IsExact (.directory entries) settings where
  files_ascending := (files_discover_pairwise htree settings).imp Text.bytes_lt_bytes_iff.mpr
  mem_files _ := mem_files_discover_iff htree
  sources_distinct h h' := h.eq_of_path htree h'
  roots_ascending := by
    have hsorted : ((discover (.directory entries) settings).manifests.map (·.root)).Pairwise
        (· < ·) := by
      rw [map_root_manifests_discover]
      exact Text.sortedUnique_pairwise _
    exact (List.pairwise_map.mp hsorted).imp Text.bytes_lt_bytes_iff.mpr
  mem_roots root := by
    rw [map_root_manifests_discover]
    exact mem_projectRoots_iff htree
  owner hsource := by
    obtain ⟨root, hroot⟩ := FileTree.exists_isNearestRoot (.directory entries) _
    exact ⟨root, hroot, owningRoot_discover htree hsource hroot⟩

/-- A tree with two projects, a hidden and a named directory that are skipped, a hidden file that is
not, and a file that is larger than the others. -/
def nestedEntries : List (String × FileTree) :=
  [("setup.py", .file ByteArray.empty),
    (".profile.py", .file ByteArray.empty),
    (".cache", .directory [("old.py", .file ByteArray.empty)]),
    ("services", .directory
      [("api", .directory
        [("go.mod", .file "module api".toUTF8),
          ("cmd", .directory [("main.go", .file "package main\nfunc main() {}\n".toUTF8)])]),
        ("vendor", .directory [("lib.go", .file ByteArray.empty)]),
        ("api.ts", .file ByteArray.empty)])]

/-- Settings under which a file of a few lines is a large one. -/
def smallFiles : ScanSettings := { maxFileBytes := 16 }

theorem wellFormed_nestedEntries : (FileTree.directory nestedEntries).WellFormed := by
  have hleaf : ∀ {name : String} {content : ByteArray}, FileTree.IsEntryName name →
      (FileTree.directory [(name, .file content)]).WellFormed := fun hname =>
    .directory (by simp) (by simpa using hname) (by simpa using .file _)
  refine .directory (by decide) (by decide) ?_
  simp only [nestedEntries, List.forall_mem_cons, List.not_mem_nil, false_imp_iff, implies_true,
    and_true]
  refine ⟨.file _, .file _, hleaf (by decide), .directory (by decide) (by decide) ?_⟩
  simp only [List.forall_mem_cons, List.not_mem_nil, false_imp_iff, implies_true, and_true]
  refine ⟨.directory (by decide) (by decide) ?_, hleaf (by decide), .file _⟩
  simpa using ⟨.file _, hleaf (by decide)⟩

theorem discover_isExact_nestedEntries :
    (FileTree.directory nestedEntries).WellFormed ∧
      (discover (.directory nestedEntries) smallFiles).IsExact (.directory nestedEntries) smallFiles ∧
      (discover (.directory nestedEntries) smallFiles).files.map (·.path)
        = [".profile.py", "services/api.ts", "services/api/cmd/main.go"] ∧
      (discover (.directory nestedEntries) smallFiles).manifests.map (·.root)
        = ["", "services/api"] := by
  have hexact := discover_isExact wellFormed_nestedEntries smallFiles
  refine ⟨wellFormed_nestedEntries, hexact, ?_, ?_⟩
  · have hsorted := List.pairwise_map.mpr
      (files_discover_pairwise wellFormed_nestedEntries smallFiles)
    refine hsorted.eq_of_mem_iff (by decide) fun path => ?_
    have hfound : (((FileTree.directory nestedEntries).filesFrom
        smallFiles.enters "").filterMap fun file =>
          (sourceFile? smallFiles file.1 file.2).map (·.path))
        = [".profile.py", "services/api/cmd/main.go", "services/api.ts"] := by decide +kernel
    rw [discover, List.mem_map]
    simp only [List.mem_mergeSort]
    rw [← List.mem_map, List.map_filterMap, hfound]
    simp [or_comm]
  · have hfound : (((FileTree.directory nestedEntries).filesFrom
        smallFiles.enters "").filter fun file =>
          (ManifestFile.ofPath? file.1).isSome).map (fun file => Path.parent file.1)
        = ["", "services/api"] := by decide +kernel
    rw [map_root_manifests_discover, projectRoots, hfound]
    refine (Text.sortedUnique_pairwise _).eq_of_mem_iff (by decide) fun root => ?_
    rw [Text.mem_sortedUnique]
    simp

end ModuleAtlas
