import ModuleAtlas.Proofs.Json.Number
import ModuleAtlas.Proofs.Workspace.Accounts

/-!
# What warnings say

The message of a warning names the file that could not be read, and it names no other path
(`ExtractError.path_eq_of_message_eq`). It is written where the project of the file is analysed, with
the path relative to the root of the project, and stays as it is when the path of the warning is put
below the root. So the two agree for the files of the scan root only (`names_warnings_iff`).
-/

namespace ModuleAtlas

/-! ## Messages -/

namespace ExtractError

variable {a b : ExtractError} {front back m n : List Char} {c : Char}

/-- The path that an error is about. -/
def path : ExtractError → String
  | .notUtf8 path => path
  | .badSyntax path _ => path

/-- What stands before the last occurrence of a character is determined by the text. -/
theorem eq_of_append_cons_eq (hm : c ∉ m) (hn : c ∉ n) (h : front ++ c :: m = back ++ c :: n) :
    front = back := by
  rcases List.append_eq_append_iff.mp h with ⟨mid, hback, htail⟩ | ⟨mid, hfront, htail⟩
  · cases mid with
    | nil => rw [hback, List.append_nil]
    | cons first mid =>
      have hmem : c ∈ m := by simp [(List.cons.inj htail).2]
      exact absurd hmem hm
  · cases mid with
    | nil => rw [hfront, List.append_nil]
    | cons first mid =>
      have hmem : c ∈ n := by simp [(List.cons.inj htail).2]
      exact absurd hmem hn

theorem message_badSyntax (path : String) (line : Nat) :
    (badSyntax path line).message
      = "Syntax error in " ++ path ++ " at line " ++ toString line := rfl

theorem toList_message_badSyntax (path : String) (line : Nat) :
    (badSyntax path line).message.toList
      = ("Syntax error in " ++ path ++ " at line").toList ++ ' ' :: (toString line).toList := by
  have hat : " at line " = " at line" ++ " " := by decide
  have hblank : " ".toList = [' '] := by decide
  rw [message_badSyntax, hat, ← String.append_assoc, String.toList_append, String.toList_append,
    List.append_assoc, hblank]
  rfl

/-- The two kinds of messages start with different letters. -/
theorem message_notUtf8_ne (path other : String) (line : Nat) :
    (notUtf8 path).message ≠ (badSyntax other line).message := by
  intro h
  have hutf8 : (notUtf8 path).message.toList.head? = some 'F' := by
    show ("File is not valid UTF-8: " ++ path).toList.head? = _
    rw [String.toList_append, List.head?_append_of_ne_nil _ (by decide)]
    decide
  have hsyntax : (badSyntax other line).message.toList.head? = some 'S' := by
    rw [message_badSyntax, String.append_assoc, String.append_assoc, String.toList_append,
      List.head?_append_of_ne_nil _ (by decide)]
    decide
  rw [h, hsyntax] at hutf8
  cases hutf8

/-- The message tells which path the error is about. -/
theorem path_eq_of_message_eq (h : a.message = b.message) : a.path = b.path := by
  cases a with
  | notUtf8 path =>
    cases b with
    | notUtf8 other => exact (String.append_right_inj _).mp h
    | badSyntax other line => exact absurd h (message_notUtf8_ne path other line)
  | badSyntax path line =>
    cases b with
    | notUtf8 other => exact absurd h.symm (message_notUtf8_ne other path line)
    | badSyntax other line' =>
      -- the line is what stands after the last blank
      have hlist := congrArg String.toList h
      rw [toList_message_badSyntax, toList_message_badSyntax] at hlist
      have hblank : ∀ n : ℕ, ' ' ∉ (toString n).toList := Json.not_mem_toString (by decide)
      have hfront := String.toList_injective
        (eq_of_append_cons_eq (hblank line) (hblank line') hlist)
      exact (String.append_right_inj _).mp ((String.append_left_inj _).mp hfront)

end ExtractError

/-- The message of a warning is about a path. -/
def Warning.Names (w : Warning) (path : String) : Prop :=
  ∃ error : ExtractError, error.path = path ∧ w.message = error.message

variable {α : Type} [Average α] {files : List SourceFile} {manifests : List Manifest}
  {settings : AnalysisSettings} {w : Warning} {path other root : String}

/-- The message of a warning is about one path only. -/
theorem Warning.Names.eq (h : w.Names path) (hother : w.Names other) : other = path := by
  obtain ⟨error, rfl, hmessage⟩ := h
  obtain ⟨error', rfl, hmessage'⟩ := hother
  exact ExtractError.path_eq_of_message_eq (hmessage'.symm.trans hmessage)

/-- Only below the scan root is a path the same as without the root. -/
theorem Path.under_eq_self_iff (root path : String) : Path.under root path = path ↔ root = "" := by
  constructor
  · intro h
    by_contra hroot
    rw [Path.under, if_neg hroot] at h
    have hlength := congrArg String.length h
    rw [String.length_append, String.length_append] at hlength
    have hslash : "/".length = 1 := by decide
    omega
  · rintro rfl
    rfl

section

variable [Syntax.Parser]

/-! ## Warnings of a project -/

/-- What is wrong with a file is about its path. -/
theorem SourceFile.path_of_extract_eq_error {file : SourceFile} {error : ExtractError}
    (h : file.extract = .error error) : error.path = file.path := by
  unfold extract at h
  split at h
  · cases h
    rfl
  · rename_i text _
    cases htext : extractText file.language file.path text with
    | error line =>
      rw [htext] at h
      cases h
      rfl
    | ok found =>
      rw [htext] at h
      cases h

theorem Project.path_of_mem_rejections {r : Rejection} (h : r ∈ Project.rejections files) :
    r.error.path = r.path := by
  rw [Project.rejections, List.mem_mergeSort] at h
  obtain ⟨file, -, h⟩ := List.mem_filterMap.mp h
  unfold Project.rejectionOf? at h
  split at h
  · cases h
  · rename_i error hextract
    cases h
    exact SourceFile.path_of_extract_eq_error hextract

/-- The warnings of a project name the files that they are about. -/
theorem names_of_mem_warnings {manifest : Manifest}
    (hw : w ∈ (analyzeProject files manifest settings : Metrics α).warnings) : w.Names w.path := by
  rw [warnings_analyzeProject] at hw
  obtain ⟨r, hr, rfl⟩ := List.mem_map.mp hw
  exact ⟨r.error, Project.path_of_mem_rejections hr, rfl⟩

/-! ## Warnings of a workspace -/

/-- A warning names its file as it is named in the project to which it belongs. -/
theorem names_relativeTo_of_mem_warnings
    (hw : w ∈ (analyzeWorkspace files manifests settings : Metrics α).warnings) :
    w.Names (relativeTo (owningRoot (workspaceRoots manifests) w.path) w.path) := by
  have hscan := scanRoot_mem_workspaceRoots manifests
  rw [flatMap_analyzeWorkspace Metrics.warnings rfl (fun _ _ => rfl)] at hw
  obtain ⟨m, -, hw⟩ := List.mem_flatMap.mp hw
  rw [(within_projectMetrics hscan files settings m).warnings w hw]
  rw [projectMetrics, Metrics.below_eq_mapPaths] at hw
  obtain ⟨own, hown, rfl⟩ := List.mem_map.mp hw
  show Warning.Names _ (relativeTo m.root (Path.under m.root own.path))
  rw [relativeTo_under]
  exact names_of_mem_warnings hown

theorem names_iff_of_mem_warnings
    (hw : w ∈ (analyzeWorkspace files manifests settings : Metrics α).warnings) :
    w.Names path ↔ path = relativeTo (owningRoot (workspaceRoots manifests) w.path) w.path := by
  have hnames := names_relativeTo_of_mem_warnings hw
  constructor
  · exact fun h => hnames.eq h
  · rintro rfl
    exact hnames

/-- A warning names its own path exactly if its file belongs to the scan root. -/
theorem names_path_iff_of_mem_warnings
    (hw : w ∈ (analyzeWorkspace files manifests settings : Metrics α).warnings) :
    w.Names w.path ↔ owningRoot (workspaceRoots manifests) w.path = "" := by
  obtain ⟨-, hcontains, -⟩ := owningRoot_spec (scanRoot_mem_workspaceRoots manifests) w.path
  rw [names_iff_of_mem_warnings hw, ← Path.under_eq_self_iff _ (relativeTo _ w.path),
    under_relativeTo hcontains]

/-- Every file that is rejected has a warning. -/
theorem exists_warning_of_isRejected {file : SourceFile} (hfile : file ∈ files)
    (hrejected : file.isRejected = true) (manifests : List Manifest) (settings : AnalysisSettings) :
    ∃ w ∈ (analyzeWorkspace files manifests settings : Metrics α).warnings, w.path = file.path := by
  have hpath : file.path ∈ (files.filter SourceFile.isRejected).map (·.path) :=
    List.mem_map_of_mem (List.mem_filter.mpr ⟨hfile, hrejected⟩)
  exact List.mem_map.mp ((map_path_warnings_perm files manifests settings).mem_iff.mpr hpath)

/-- Every warning is about a file that is rejected. -/
theorem exists_file_of_mem_warnings
    (hw : w ∈ (analyzeWorkspace files manifests settings : Metrics α).warnings) :
    ∃ file ∈ files, file.isRejected = true ∧ file.path = w.path := by
  have hpath := (map_path_warnings_perm files manifests settings).mem_iff.mp
    (List.mem_map_of_mem (f := Warning.path) hw)
  obtain ⟨file, hfile, hpath⟩ := List.mem_map.mp hpath
  obtain ⟨hmem, hrejected⟩ := List.mem_filter.mp hfile
  exact ⟨file, hmem, hrejected, hpath⟩

/-- The message of a warning names one path, that of its file as it is named in the project to which
it belongs. This is the path of the warning exactly if the file belongs to the scan root, so all
messages agree with their paths exactly if all files that are rejected belong to it. -/
theorem names_warnings_iff (files : List SourceFile) (manifests : List Manifest)
    (settings : AnalysisSettings) :
    let roots := workspaceRoots manifests
    let warnings := (analyzeWorkspace files manifests settings : Metrics α).warnings
    (∀ w ∈ warnings,
      (∀ path, w.Names path ↔ path = relativeTo (owningRoot roots w.path) w.path) ∧
      (w.Names w.path ↔ owningRoot roots w.path = "")) ∧
    ((∀ w ∈ warnings, w.Names w.path) ↔
      ∀ file ∈ files, file.isRejected = true → owningRoot roots file.path = "") := by
  intro roots warnings
  refine ⟨fun w hw => ⟨fun path => names_iff_of_mem_warnings hw, names_path_iff_of_mem_warnings hw⟩,
    fun h file hfile hrejected => ?_, fun h w hw => ?_⟩
  · obtain ⟨w, hw, hpath⟩ : ∃ w ∈ warnings, w.path = file.path :=
      exists_warning_of_isRejected hfile hrejected manifests settings
    rw [← hpath]
    exact (names_path_iff_of_mem_warnings hw).mp (h w hw)
  · obtain ⟨file, hfile, hrejected, hpath⟩ := exists_file_of_mem_warnings hw
    refine (names_path_iff_of_mem_warnings hw).mpr ?_
    rw [← hpath]
    exact h file hfile hrejected

end

/-- The manifest of a project below the scan root. -/
def webManifest : Manifest := { root := "web" }

/-- A file of the project that cannot be read. -/
def brokenScript : SourceFile where
  path := "web/bad.py"
  language := .python
  content := "def oops(:\n".toUTF8

/-- The same file beside the project. -/
def brokenOutside : SourceFile := { brokenScript with path := "bad.py" }

theorem workspaceRoots_webManifest :
    ∀ root ∈ workspaceRoots [webManifest], root = "" ∨ root = "web" := by
  intro root hroot
  exact (mem_workspaceRoots.mp hroot).imp_right fun hweb => List.mem_singleton.mp hweb

/-- The warning about the file beside the project names its path. -/
theorem names_warnings_brokenOutside :
    let roots := workspaceRoots [webManifest]
    let warnings := (analyzeWorkspace [brokenOutside] [webManifest] {} : Metrics ℚ).warnings
    ∃ w ∈ warnings, w.path = "bad.py" ∧ w.Names "bad.py" ∧
      (w.Names w.path ↔ owningRoot roots w.path = "") ∧
      ((∀ w ∈ warnings, w.Names w.path) ↔
        ∀ file ∈ [brokenOutside], file.isRejected = true → owningRoot roots file.path = "") := by
  intro roots warnings
  have hrejected : brokenOutside.isRejected = true := by decide +kernel
  obtain ⟨w, hw, hpath⟩ : ∃ w ∈ warnings, w.path = "bad.py" :=
    exists_warning_of_isRejected List.mem_cons_self hrejected [webManifest] {}
  obtain ⟨heach, hall⟩ := names_warnings_iff (α := ℚ) [brokenOutside] [webManifest] {}
  have howner : owningRoot roots w.path = "" := by
    rw [hpath, owningRoot_eq_iff (scanRoot_mem_workspaceRoots _)]
    refine ⟨scanRoot_mem_workspaceRoots _, rfl, fun other hother hcontains => ?_⟩
    rcases workspaceRoots_webManifest other hother with rfl | rfl
    · exact le_rfl
    · cases (by decide : containsPath "web" "bad.py" = false).symm.trans hcontains
  refine ⟨w, hw, hpath, ?_, (heach w hw).2, hall⟩
  rw [← hpath]
  exact (heach w hw).2.mpr howner

/-- The warning about the file of the project names another path, which is not even that of a file. -/
theorem not_names_brokenScript :
    let warnings := (analyzeWorkspace [brokenScript] [webManifest] {} : Metrics ℚ).warnings
    ∃ w ∈ warnings, w.path = "web/bad.py" ∧ w.Names "bad.py" ∧ ¬ w.Names w.path := by
  intro warnings
  have hrejected : brokenScript.isRejected = true := by decide +kernel
  obtain ⟨w, hw, hpath⟩ : ∃ w ∈ warnings, w.path = "web/bad.py" :=
    exists_warning_of_isRejected List.mem_cons_self hrejected [webManifest] {}
  have howner : owningRoot (workspaceRoots [webManifest]) w.path = "web" := by
    rw [hpath, owningRoot_eq_iff (scanRoot_mem_workspaceRoots _)]
    refine ⟨mem_workspaceRoots.mpr (.inr (by decide)), by decide, fun other hother _ => ?_⟩
    rcases workspaceRoots_webManifest other hother with rfl | rfl <;> decide
  refine ⟨w, hw, hpath, ?_, ?_⟩
  · rw [names_iff_of_mem_warnings hw, howner, hpath]
    decide
  · rw [names_path_iff_of_mem_warnings hw, howner]
    decide

end ModuleAtlas
