import ModuleAtlas.Proofs.Workspace.Accounts

/-!
# What the metrics of a workspace depend on

The order of the files, of the manifests and of the configured entry points does not matter
(`analyzeWorkspace_eq_of_perm`). Files that are not readable change nothing but the warnings, also
where a root has no other files (`analyzeWorkspace_filter_isReadable`). What is found out about the
paths of one root depends on the files, the entry points and the manifest of that root alone
(`findings_analyzeWorkspace_congr`).
-/

namespace ModuleAtlas

variable {α β : Type} [Average α] {roots : List String} {root : String}
  {files others : List SourceFile} {manifests manifests' : List Manifest}
  {settings settings' : AnalysisSettings}

/-- Settings agree for a root if they have the same entry points that belong to it. -/
theorem agree_settingsFor
    (hentries : ∀ entry, owningRoot roots entry = root →
      (entry ∈ settings.entryPoints ↔ entry ∈ settings'.entryPoints))
    (hignore : settings.ignoreEntryExports = settings'.ignoreEntryExports) :
    (settingsFor roots root settings).Agree (settingsFor roots root settings') where
  mem_entryPoints := by
    have hsame : ∀ entry, entry ∈ settings.entryPoints.filter (owningRoot roots · = root) ↔
        entry ∈ settings'.entryPoints.filter (owningRoot roots · = root) := by
      intro entry
      rw [List.mem_filter, List.mem_filter, decide_eq_true_eq]
      exact and_congr_left fun howner => hentries entry howner
    intro path
    simp only [settingsFor, List.mem_map, hsame]
  ignoreEntryExports := hignore

theorem filesOf_perm (roots : List String) (root : String) (h : files.Perm others) :
    (filesOf roots root files).Perm (filesOf roots root others) :=
  (h.filter _).map _

section

variable [Syntax.Parser]

/-- Modules, rejections and settings decide about the metrics of a group. -/
theorem projectMetrics_congr {manifest : Manifest}
    (hmodules : Project.ofFiles (filesOf roots manifest.root files)
      = Project.ofFiles (filesOf roots manifest.root others))
    (hrejections : Project.rejections (filesOf roots manifest.root files)
      = Project.rejections (filesOf roots manifest.root others))
    (hsettings : (settingsFor roots manifest.root settings).Agree
      (settingsFor roots manifest.root settings')) :
    (projectMetrics roots files settings manifest : Metrics α)
      = projectMetrics roots others settings' manifest := by
  rw [projectMetrics, projectMetrics, analyzeProject_congr hmodules hrejections hsettings]

/-! ## Order -/

/-- The metrics of a group do not depend on the order of the files. -/
theorem projectMetrics?_eq_of_perm (hscan : "" ∈ roots) (hpaths : (files.map (·.path)).Nodup)
    (hfiles : files.Perm others) (hsettings : settings.Agree settings') (manifest : Manifest) :
    (projectMetrics? roots files settings manifest : Option (Metrics α))
      = projectMetrics? roots others settings' manifest := by
  have hgroup := filesOf_perm roots manifest.root hfiles
  have hdistinct := nodup_map_path_filesOf hscan hpaths manifest.root
  have hagree : (settingsFor roots manifest.root settings).Agree
      (settingsFor roots manifest.root settings') :=
    agree_settingsFor (fun entry _ => hsettings.mem_entryPoints entry) hsettings.ignoreEntryExports
  rw [projectMetrics?_eq, projectMetrics?_eq, hgroup.isEmpty_eq,
    projectMetrics_congr (Project.ofFiles_eq_of_perm hdistinct hgroup)
      (Project.rejections_eq_of_perm hdistinct hgroup) hagree]

/-- The order of files, manifests and entry points does not matter. -/
theorem analyzeWorkspace_eq_of_perm (hpaths : (files.map (·.path)).Nodup)
    (hfiles : files.Perm others) (hroots : (manifests.map (·.root)).Nodup)
    (hmanifests : manifests.Perm manifests') (hsettings : settings.Agree settings') :
    (analyzeWorkspace files manifests settings : Metrics α)
        = analyzeWorkspace others manifests' settings' ∧
      ∀ manifest, (analyzeProject files manifest settings : Metrics α)
        = analyzeProject others manifest settings' := by
  constructor
  · have hall := workspaceManifests_eq_of_perm hroots hmanifests
    have hscan := scanRoot_mem_workspaceRoots manifests
    rw [analyzeWorkspace_eq, analyzeWorkspace_eq, workspaceRoots, workspaceRoots, ← hall]
    refine congrArg Metrics.mergeAll (List.filterMap_congr fun manifest _ => ?_)
    exact projectMetrics?_eq_of_perm hscan hpaths hfiles hsettings manifest
  · intro manifest
    exact analyzeProject_congr (Project.ofFiles_eq_of_perm hpaths hfiles)
      (Project.rejections_eq_of_perm hpaths hfiles) hsettings manifest

end

/-- Files, manifests and entry points in another order, with an entry point twice. -/
theorem analyzeWorkspace_nestedFiles_reverse :
    (nestedFiles.map (·.path)).Nodup ∧
    (analyzeWorkspace nestedFiles nestedManifests { entryPoints := ["apps/tool.go"] } : Metrics ℚ)
      = analyzeWorkspace nestedFiles.reverse nestedManifests.reverse
        { entryPoints := ["apps/tool.go", "apps/tool.go"] } := by
  have hpaths : (nestedFiles.map (·.path)).Nodup := by decide
  have hroots : (nestedManifests.map (·.root)).Nodup := by decide
  have hsettings : AnalysisSettings.Agree { entryPoints := ["apps/tool.go"] }
      { entryPoints := ["apps/tool.go", "apps/tool.go"] } := ⟨by simp, rfl⟩
  have hresult := analyzeWorkspace_eq_of_perm (α := ℚ) hpaths (List.reverse_perm _).symm hroots
    (List.reverse_perm _).symm hsettings
  exact ⟨hpaths, hresult.1⟩

section

variable [Syntax.Parser]

/-! ## Files that are not readable -/

/-- Without the files that are not readable the metrics of a group are the same, less the
warnings. -/
theorem projectMetrics_filter_isReadable (hscan : "" ∈ roots) (files : List SourceFile)
    (settings : AnalysisSettings) (manifest : Manifest) :
    (projectMetrics roots (files.filter SourceFile.isReadable) settings manifest : Metrics α)
      = (projectMetrics roots files settings manifest).withoutWarnings := by
  rw [projectMetrics, projectMetrics, ← filter_filesOf hscan SourceFile.isReadable_within,
    analyzeProject_filter_isReadable, Metrics.below_eq_mapPaths, Metrics.below_eq_mapPaths]
  rfl

/-- Groups without files can be analysed or left out. -/
theorem analyzeWorkspace_eq_foldl [LawfulAverage α] (files : List SourceFile)
    (manifests : List Manifest) (settings : AnalysisSettings) :
    (analyzeWorkspace files manifests settings : Metrics α)
      = ((workspaceManifests manifests).map
          (projectMetrics (workspaceRoots manifests) files settings)).foldl
          Metrics.merge .empty := by
  rw [analyzeWorkspace_eq, ← Metrics.mergeAll_filterMap
    (fun m => !(filesOf (workspaceRoots manifests) m.root files).isEmpty)
    (regular_projectMetrics _ _ _)
    (fun m hm => projectMetrics_of_isEmpty (by simpa using hm))]
  refine congrArg Metrics.mergeAll (List.filterMap_congr fun m _ => ?_)
  exact projectMetrics?_eq _ _ _ _

theorem analyzeWorkspace_filter_isReadable_of_lawful [LawfulAverage α] (files : List SourceFile)
    (manifests : List Manifest) (settings : AnalysisSettings) :
    (analyzeWorkspace (files.filter SourceFile.isReadable) manifests settings : Metrics α)
      = (analyzeWorkspace files manifests settings).withoutWarnings := by
  have hscan := scanRoot_mem_workspaceRoots manifests
  rw [analyzeWorkspace_eq_foldl, analyzeWorkspace_eq_foldl, Metrics.withoutWarnings_foldl,
    List.map_map]
  refine congrArg (List.foldl Metrics.merge Metrics.empty) (List.map_congr_left fun m _ => ?_)
  exact projectMetrics_filter_isReadable hscan files settings m

/-- The averages are the only fields that depend on the type of averages. -/
theorem withoutAverages_analyzeWorkspace (files : List SourceFile) (manifests : List Manifest)
    (settings : AnalysisSettings) :
    (analyzeWorkspace files manifests settings : Metrics α).withoutAverages
      = analyzeWorkspace files manifests settings := by
  rw [analyzeWorkspace_eq, analyzeWorkspace_eq, Metrics.withoutAverages_mergeAll,
    List.map_filterMap]
  refine congrArg Metrics.mergeAll (List.filterMap_congr fun m _ => ?_)
  rw [projectMetrics?_eq, projectMetrics?_eq]
  cases (filesOf (workspaceRoots manifests) m.root files).isEmpty with
  | true => rfl
  | false =>
    change some (projectMetrics _ files settings m : Metrics α).withoutAverages = some _
    rw [projectMetrics, Metrics.withoutAverages_below, withoutAverages_analyzeProject]
    rfl

/-- Files that are not readable leave no trace in a workspace but the warnings about rejected ones. -/
theorem analyzeWorkspace_filter_isReadable (files : List SourceFile) (manifests : List Manifest)
    (settings : AnalysisSettings) :
    (analyzeWorkspace (files.filter SourceFile.isReadable) manifests settings : Metrics ℚ)
        = (analyzeWorkspace files manifests settings).withoutWarnings ∧
      (analyzeWorkspace (files.filter SourceFile.isReadable) manifests settings :
          Metrics α).withoutAverages
        = (analyzeWorkspace files manifests settings : Metrics α).withoutAverages.withoutWarnings ∧
      ((analyzeWorkspace files manifests settings : Metrics α).warnings.map (·.path)).Perm
        ((files.filter SourceFile.isRejected).map (·.path)) := by
  refine ⟨analyzeWorkspace_filter_isReadable_of_lawful files manifests settings, ?_,
    map_path_warnings_perm files manifests settings⟩
  -- averages that are left out are lawful, whatever the averages were
  rw [withoutAverages_analyzeWorkspace, withoutAverages_analyzeWorkspace]
  exact analyzeWorkspace_filter_isReadable_of_lawful files manifests settings

end

/-! ## Other roots -/

/-- What is listed by an analysis with the paths it is about. -/
structure Findings where
  cycles : List Cycle
  deadExports : List DeadExport
  unreachable : List String
  warnings : List Warning
  deriving DecidableEq, Repr

omit [Average α] in
/-- The findings of an analysis. -/
def Metrics.findings (m : Metrics α) : Findings :=
  ⟨m.cycles, m.deadExports, m.unreachable, m.warnings⟩

/-- The findings about paths that are owned, in their order. -/
def Findings.about (owned : String → Bool) (f : Findings) : Findings where
  cycles := f.cycles.filter fun c => c.modules.all owned
  deadExports := f.deadExports.filter fun e => owned e.module
  unreachable := f.unreachable.filter owned
  warnings := f.warnings.filter fun w => owned w.path

section

variable [Syntax.Parser]

/-- What is listed about a root is what its group lists. -/
theorem filter_analyzeWorkspace (hroot : root ∈ workspaceRoots manifests) (files : List SourceFile)
    (settings : AnalysisSettings) (list : Metrics α → List β) {owned : β → Bool}
    (hempty : list .empty = []) (hmerge : ∀ m n, list (m.merge n) = list m ++ list n)
    (howned : ∀ manifest : Manifest,
      ∀ x ∈ list (projectMetrics (workspaceRoots manifests) files settings manifest),
        owned x = decide (manifest.root = root)) :
    (list (analyzeWorkspace files manifests settings)).filter owned
      = list (projectMetrics (workspaceRoots manifests) files settings
          (manifestOf manifests root)) := by
  have hfind := find?_workspaceManifests_of_mem hroot
  have hown : (manifestOf manifests root).root = root := by simpa using List.find?_some hfind
  rw [flatMap_analyzeWorkspace list hempty hmerge]
  refine filter_flatMap_eq_of_mem (workspaceRoots_nodup manifests)
    (List.mem_of_find?_eq_some hfind) fun manifest x hx => ?_
  rw [howned manifest x hx, hown]

/-- The findings about a root are those of its group. -/
theorem findings_analyzeWorkspace (hroot : root ∈ workspaceRoots manifests)
    (files : List SourceFile) (settings : AnalysisSettings) :
    (analyzeWorkspace files manifests settings : Metrics α).findings.about
        (owningRoot (workspaceRoots manifests) · = root)
      = (projectMetrics (workspaceRoots manifests) files settings
          (manifestOf manifests root) : Metrics α).findings := by
  have hwithin := within_projectMetrics (α := α) (scanRoot_mem_workspaceRoots manifests) files
    settings
  -- a cycle is not empty, so its modules cannot belong to two roots
  have hcycles : ∀ manifest : Manifest,
      ∀ c ∈ (projectMetrics (workspaceRoots manifests) files settings manifest :
        Metrics α).cycles,
        c.modules.all (owningRoot (workspaceRoots manifests) · = root)
          = decide (manifest.root = root) := by
    intro manifest c hc
    obtain ⟨hnonempty, hmodules⟩ := (hwithin manifest).cycles c hc
    obtain ⟨id, hid⟩ := List.exists_mem_of_ne_nil _ hnonempty
    rw [Bool.eq_iff_iff, List.all_eq_true, decide_eq_true_eq]
    constructor
    · intro hall
      have howner : owningRoot (workspaceRoots manifests) id = root := by simpa using hall id hid
      rw [← hmodules id hid, howner]
    · rintro rfl path hpath
      exact decide_eq_true (hmodules path hpath)
  have howned : ∀ (manifest : Manifest) (path : String),
      owningRoot (workspaceRoots manifests) path = manifest.root →
        decide (owningRoot (workspaceRoots manifests) path = root)
          = decide (manifest.root = root) :=
    fun manifest path howner => by rw [howner]
  unfold Findings.about Metrics.findings
  rw [Findings.mk.injEq]
  refine ⟨filter_analyzeWorkspace hroot files settings Metrics.cycles rfl (fun _ _ => rfl) hcycles,
    filter_analyzeWorkspace hroot files settings Metrics.deadExports rfl (fun _ _ => rfl) ?_,
    filter_analyzeWorkspace hroot files settings Metrics.unreachable rfl (fun _ _ => rfl) ?_,
    filter_analyzeWorkspace hroot files settings Metrics.warnings rfl (fun _ _ => rfl) ?_⟩
  · exact fun manifest e he => howned manifest _ ((hwithin manifest).deadExports e he)
  · exact fun manifest id hid => howned manifest id ((hwithin manifest).unreachable id hid)
  · exact fun manifest w hw => howned manifest _ ((hwithin manifest).warnings w hw)

/-- All modules of a cycle belong to one root. -/
theorem exists_owningRoot_of_mem_cycles {c : Cycle}
    (hc : c ∈ (analyzeWorkspace files manifests settings : Metrics α).cycles) :
    ∃ root ∈ workspaceRoots manifests,
      ∀ id ∈ c.modules, owningRoot (workspaceRoots manifests) id = root := by
  rw [flatMap_analyzeWorkspace Metrics.cycles rfl (fun _ _ => rfl)] at hc
  obtain ⟨manifest, hmanifest, hcycle⟩ := List.mem_flatMap.mp hc
  have hwithin := within_projectMetrics (α := α) (scanRoot_mem_workspaceRoots manifests) files
    settings manifest
  exact ⟨manifest.root, List.mem_map_of_mem hmanifest, (hwithin.cycles c hcycle).2⟩

/-- What is found out about a root depends on its own files, entry points and manifest alone. -/
theorem findings_analyzeWorkspace_congr (hroot : root ∈ workspaceRoots manifests)
    (hroots : ∀ other, other ≠ "" →
      (other ∈ manifests.map (·.root) ↔ other ∈ manifests'.map (·.root)))
    (hmanifest : manifestOf manifests root = manifestOf manifests' root)
    (hfiles : files.filter (fun file => owningRoot (workspaceRoots manifests) file.path = root)
      = others.filter (fun file => owningRoot (workspaceRoots manifests) file.path = root))
    (hentries : ∀ entry, owningRoot (workspaceRoots manifests) entry = root →
      (entry ∈ settings.entryPoints ↔ entry ∈ settings'.entryPoints))
    (hignore : settings.ignoreEntryExports = settings'.ignoreEntryExports) :
    (analyzeWorkspace files manifests settings : Metrics α).findings.about
        (owningRoot (workspaceRoots manifests) · = root)
      = (analyzeWorkspace others manifests' settings' : Metrics α).findings.about
        (owningRoot (workspaceRoots manifests) · = root) ∧
    ∀ c ∈ (analyzeWorkspace files manifests settings : Metrics α).cycles,
      ∃ own ∈ workspaceRoots manifests,
        ∀ id ∈ c.modules, owningRoot (workspaceRoots manifests) id = own := by
  refine ⟨?_, fun c hc => exists_owningRoot_of_mem_cycles hc⟩
  have hsame : workspaceRoots manifests = workspaceRoots manifests' := workspaceRoots_congr hroots
  have hown : (manifestOf manifests root).root = root := by
    simpa using List.find?_some (find?_workspaceManifests_of_mem hroot)
  have hgroup : filesOf (workspaceRoots manifests) root files
      = filesOf (workspaceRoots manifests) root others := by
    rw [filesOf_eq, filesOf_eq, hfiles]
  have hmetrics : (projectMetrics (workspaceRoots manifests) files settings
      (manifestOf manifests root) : Metrics α)
        = projectMetrics (workspaceRoots manifests) others settings' (manifestOf manifests root) := by
    refine projectMetrics_congr ?_ ?_ ?_
    · rw [hown, hgroup]
    · rw [hown, hgroup]
    · rw [hown]
      exact agree_settingsFor hentries hignore
  -- both sides are the findings of one group; the second workspace has it under its own roots
  rw [findings_analyzeWorkspace hroot, hmetrics, hmanifest]
  rw [hsame] at hroot ⊢
  rw [findings_analyzeWorkspace hroot]

end

/-- The files of the innermost of the nested projects, with other files around it. -/
def otherFiles : List SourceFile :=
  { path := "apps/web.go", language := .go, content := .empty } :: nestedFiles.take 2

/-- The same roots in another order, with a name for the outer one. -/
def otherManifests : List Manifest :=
  [{ root := "apps/web" }, { root := "apps", goModule := some "example.org/apps" }]

/-- An entry point that belongs to the outer one. -/
def otherSettings : AnalysisSettings := { entryPoints := ["apps/web.go"] }

theorem findings_nestedFiles_congr :
    "apps/web" ∈ workspaceRoots nestedManifests ∧
    (analyzeWorkspace nestedFiles nestedManifests {} : Metrics ℚ).findings.about
        (owningRoot (workspaceRoots nestedManifests) · = "apps/web")
      = (analyzeWorkspace otherFiles otherManifests otherSettings : Metrics ℚ).findings.about
        (owningRoot (workspaceRoots nestedManifests) · = "apps/web") := by
  have hroot : "apps/web" ∈ workspaceRoots nestedManifests := by
    rw [workspaceRoots_nestedManifests]
    decide
  have hroots : ∀ other, other ≠ "" →
      (other ∈ nestedManifests.map (·.root) ↔ other ∈ otherManifests.map (·.root)) := by
    intro other _
    simp [nestedManifests, otherManifests, or_comm]
  have hfiles : nestedFiles.filter
        (fun file => owningRoot (workspaceRoots nestedManifests) file.path = "apps/web")
      = otherFiles.filter
        (fun file => owningRoot (workspaceRoots nestedManifests) file.path = "apps/web") := by
    rw [workspaceRoots_nestedManifests]
    rfl
  have hentries : ∀ entry, owningRoot (workspaceRoots nestedManifests) entry = "apps/web" →
      (entry ∈ ({} : AnalysisSettings).entryPoints ↔ entry ∈ otherSettings.entryPoints) := by
    intro entry howner
    have hother : entry ≠ "apps/web.go" := by
      rintro rfl
      rw [workspaceRoots_nestedManifests] at howner
      exact absurd howner (by decide)
    simp [otherSettings, hother]
  have hfindings :=
    findings_analyzeWorkspace_congr (α := ℚ) hroot hroots rfl hfiles hentries rfl
  exact ⟨hroot, hfindings.1⟩

end ModuleAtlas
