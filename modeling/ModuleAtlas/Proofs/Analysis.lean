import ModuleAtlas.Analysis
import ModuleAtlas.Proofs.Graph.Cycle
import ModuleAtlas.Proofs.Linking
import ModuleAtlas.Proofs.Metrics.Largest
import ModuleAtlas.Proofs.Metrics.Merge
import ModuleAtlas.Proofs.Project

/-!
# The analysis of one project

The metrics of some files are those of their linked project, also where there are no modules
(`analyzeProject_eq`). They depend on the files only through the modules and the rejections
(`analyzeProject_congr`), and on the settings only through the flag about the exports of entry points
and through which of the modules are configured as such (`analyzeProject_congr_settings`). Files that
are not readable show in the warnings alone (`analyzeProject_filter_isReadable`). All findings are
about paths of the project's own files (`within_analyzeProject`), and the metrics are regular.
-/

namespace ModuleAtlas

variable {files others : List SourceFile} {manifest : Manifest} {settings settings' : AnalysisSettings}
  {id : String}

/-! ## Settings -/

/-- Settings with which every module is judged alike. -/
structure AnalysisSettings.Agree (settings settings' : AnalysisSettings) : Prop where
  mem_entryPoints : ∀ entry, entry ∈ settings.entryPoints ↔ entry ∈ settings'.entryPoints
  ignoreEntryExports : settings.ignoreEntryExports = settings'.ignoreEntryExports

/-- Settings with which certain modules are judged alike. -/
structure AnalysisSettings.AgreeOn (ids : List String) (settings settings' : AnalysisSettings) :
    Prop where
  mem_entryPoints : ∀ id ∈ ids, id ∈ settings.entryPoints ↔ id ∈ settings'.entryPoints
  ignoreEntryExports : settings.ignoreEntryExports = settings'.ignoreEntryExports

theorem AnalysisSettings.Agree.agreeOn (h : settings.Agree settings') (ids : List String) :
    AnalysisSettings.AgreeOn ids settings settings' :=
  ⟨fun id _ => h.mem_entryPoints id, h.ignoreEntryExports⟩

namespace Graph

variable {g : Graph} {configured more : List String}

/-- The order of the configured entry points and their repetitions do not matter, and those that are
no modules do not either. -/
theorem entryPoints_congr (h : ∀ id ∈ g.ids, id ∈ configured ↔ id ∈ more) :
    g.entryPoints configured = g.entryPoints more := by
  refine List.filter_congr fun id hid => ?_
  have hcontains : configured.contains id = more.contains id := by
    rw [Bool.eq_iff_iff, List.contains_iff_mem, List.contains_iff_mem, h id hid]
  rw [hcontains]

theorem entryWalk_congr (h : ∀ id ∈ g.ids, id ∈ configured ↔ id ∈ more) :
    g.entryWalk configured = g.entryWalk more := by
  rw [entryWalk, entryPoints_congr h]
  rfl

theorem unreachable_congr (h : ∀ id ∈ g.ids, id ∈ configured ↔ id ∈ more) :
    g.unreachable configured = g.unreachable more := by
  rw [unreachable, entryWalk_congr h]
  rfl

theorem visits_congr (h : ∀ id ∈ g.ids, id ∈ configured ↔ id ∈ more) :
    g.visits configured = g.visits more := by
  rw [visits, entryWalk_congr h]
  rfl

end Graph

namespace Project

variable {p : Project} {g : Graph} {r : Resolver}

theorem deadExports_congr (h : AnalysisSettings.AgreeOn g.ids settings settings') :
    p.deadExports g r settings = p.deadExports g r settings' := by
  unfold deadExports
  rw [h.ignoreEntryExports, Graph.entryPoints_congr h.mem_entryPoints,
    Graph.visits_congr h.mem_entryPoints]

theorem closed_graph (p : Project) : p.graph.Closed := by
  rw [graph_eq_ofCalls]
  exact Graph.closed_ofCalls _

/-- Exports are reported of modules of the project only. -/
theorem module_mem_ids_of_mem_deadExports {e : DeadExport}
    (he : e ∈ p.deadExports g r settings) : e.module ∈ p.ids := by
  obtain ⟨⟨id, facts⟩, hentry, hmem⟩ := List.mem_flatMap.mp he
  rw [List.mem_ite_nil_right] at hmem
  obtain ⟨x, -, rfl⟩ := List.mem_map.mp hmem.2
  exact List.mem_map.mpr ⟨(id, facts), hentry, rfl⟩

end Project

section

variable {α : Type} [Average α]

theorem Project.metrics_congr {p : Project} {r : Resolver}
    (h : AnalysisSettings.AgreeOn p.ids settings settings') :
    (p.metrics r settings : Metrics α) = p.metrics r settings' := by
  rw [← ids_graph] at h
  unfold Project.metrics
  dsimp only
  rw [Project.deadExports_congr h, Graph.unreachable_congr h.mem_entryPoints]

/-! ## Linked projects -/

theorem Project.withoutAverages_metrics (p : Project) (r : Resolver) (settings : AnalysisSettings) :
    (p.metrics r settings : Metrics α).withoutAverages = p.metrics r settings := rfl

/-- Linked or not, a project without modules has the metrics of no modules. -/
theorem Project.metrics_of_isEmpty {p : Project} (h : p.ids.isEmpty = true) (r : Resolver)
    (settings : AnalysisSettings) : (p.metrics r settings : Metrics α) = .empty := by
  have hentries : p.modules.entries = [] := List.map_eq_nil_iff.mp (List.isEmpty_iff.mp h)
  have hp : p = ⟨∅⟩ := congrArg Project.mk (Keyed.ext_entries hentries)
  rw [hp]
  rfl

/-- All findings are about modules and files whose paths have a property. No cycle is empty. -/
structure Metrics.Within (m : Metrics α) (P : String → Prop) : Prop where
  cycles : ∀ c ∈ m.cycles, c.modules ≠ [] ∧ ∀ id ∈ c.modules, P id
  deadExports : ∀ e ∈ m.deadExports, P e.module
  unreachable : ∀ id ∈ m.unreachable, P id
  warnings : ∀ w ∈ m.warnings, P w.path

omit [Average α] in
theorem Metrics.Within.mapPaths {m : Metrics α} {P Q : String → Prop} {f : String → String}
    (h : m.Within P) (hf : ∀ path, P path → Q (f path)) : (m.mapPaths f).Within Q where
  cycles := by
    intro c hc
    obtain ⟨old, hold, rfl⟩ := List.mem_map.mp hc
    obtain ⟨hnonempty, hmodules⟩ := h.cycles old hold
    refine ⟨fun hempty => hnonempty (List.map_eq_nil_iff.mp hempty), fun id hid => ?_⟩
    obtain ⟨path, hpath, rfl⟩ := List.mem_map.mp hid
    exact hf path (hmodules path hpath)
  deadExports := by
    intro e he
    obtain ⟨old, hold, rfl⟩ := List.mem_map.mp he
    exact hf old.module (h.deadExports old hold)
  unreachable := by
    intro id hid
    obtain ⟨old, hold, rfl⟩ := List.mem_map.mp hid
    exact hf old (h.unreachable old hold)
  warnings := by
    intro w hw
    obtain ⟨old, hold, rfl⟩ := List.mem_map.mp hw
    exact hf old.path (h.warnings old hold)

omit [Average α] in
theorem Metrics.Within.imp {m : Metrics α} {P Q : String → Prop} (h : m.Within P)
    (himp : ∀ path, P path → Q path) : m.Within Q := by
  have hsame := h.mapPaths (f := id) himp
  rwa [Metrics.mapPaths_id] at hsame

omit [Average α] in
theorem Metrics.Within.withWarnings {m : Metrics α} {P : String → Prop} {warnings : List Warning}
    (h : m.Within P) (hwarnings : ∀ w ∈ warnings, P w.path) :
    { m with warnings := warnings }.Within P :=
  ⟨h.cycles, h.deadExports, h.unreachable, hwarnings⟩

/-- The findings about a linked project are about its modules. -/
theorem Project.within_metrics (p : Project) (r : Resolver) (settings : AnalysisSettings) :
    (p.metrics r settings : Metrics α).Within (· ∈ p.ids) where
  cycles := by
    intro c hc
    have hg := closed_graph p
    have hlists := Graph.listsComponents_cycles hg
    refine ⟨fun hempty => ?_, fun id hid => ?_⟩
    · obtain ⟨first, hfirst, -⟩ := hlists.least c hc
      rw [hempty] at hfirst
      cases hfirst
    · have hself := (hlists.mem_iff id).mp ⟨c, hc, hid⟩
      rw [← ids_graph]
      exact hg.mem_left hself
  deadExports := fun e he => module_mem_ids_of_mem_deadExports he
  unreachable := by
    intro id hid
    rw [← ids_graph]
    exact (List.mem_filter.mp hid).1
  warnings := fun w hw => absurd hw List.not_mem_nil

theorem Project.regular_metrics (p : Project) (r : Resolver) (settings : AnalysisSettings) :
    (p.metrics r settings : Metrics α).Regular where
  depth h := (congrArg (Average.mean _) h).trans (Average.mean_zero _)
  fanout h := (congrArg (Average.mean _) h).trans (Average.mean_zero _)
  complexity h := (congrArg (Average.mean _) h).trans (Average.mean_zero _)
  coupling h := (congrArg (Average.mean _) h).trans (Average.mean_zero _)
  fanoutModule h := firstMax_snd_eq_none h
  complexityImport h := congrArg (Option.map Prod.snd) (firstMax_snd_eq_none h)
  complexityModule h := congrArg (Option.map Prod.fst) (firstMax_snd_eq_none h)
  couplingModule h := firstMax_snd_eq_none h

theorem Metrics.Regular.withWarnings {m : Metrics α} (h : m.Regular) (warnings : List Warning) :
    { m with warnings := warnings }.Regular :=
  ⟨h.depth, h.fanout, h.complexity, h.coupling, h.fanoutModule, h.complexityImport,
    h.complexityModule, h.couplingModule⟩

variable [Syntax.Parser]

/-! ## What the metrics depend on -/

/-- The settings count for the modules of the project alone. -/
theorem analyzeProject_congr_settings (manifest : Manifest)
    (h : AnalysisSettings.AgreeOn (Project.ofFiles files).ids settings settings') :
    (analyzeProject files manifest settings : Metrics α)
      = analyzeProject files manifest settings' := by
  rw [← Project.ids_link (Project.resolver (Project.ofFiles files) manifest)] at h
  unfold analyzeProject
  dsimp only
  rw [Project.metrics_congr h]

/-- Modules, rejections and settings decide about all metrics. -/
theorem analyzeProject_congr (hmodules : Project.ofFiles files = Project.ofFiles others)
    (hrejections : Project.rejections files = Project.rejections others)
    (hsettings : settings.Agree settings') (manifest : Manifest) :
    (analyzeProject files manifest settings : Metrics α)
      = analyzeProject others manifest settings' := by
  rw [analyzeProject_congr_settings manifest (hsettings.agreeOn _)]
  unfold analyzeProject
  rw [hmodules, hrejections]

/-- Without the files that are not readable the metrics are the same, less the warnings. -/
theorem analyzeProject_filter_isReadable (files : List SourceFile) (manifest : Manifest)
    (settings : AnalysisSettings) :
    (analyzeProject (files.filter SourceFile.isReadable) manifest settings : Metrics α)
      = (analyzeProject files manifest settings).withoutWarnings := by
  unfold analyzeProject Metrics.withoutWarnings
  rw [Project.ofFiles_filter_isReadable, Project.rejections_filter_isReadable]
  rfl

/-- The averages are the only fields that depend on the type of averages. -/
theorem withoutAverages_analyzeProject (files : List SourceFile) (manifest : Manifest)
    (settings : AnalysisSettings) :
    (analyzeProject files manifest settings : Metrics α).withoutAverages
      = analyzeProject files manifest settings := by
  unfold analyzeProject
  dsimp only
  split
  · rfl
  · rw [← Project.withoutAverages_metrics (α := α)]
    rfl

/-! ## The linked modules -/

/-- The modules of the files of a project with their imports linked. -/
def linkedProject (files : List SourceFile) (manifest : Manifest) : Project :=
  let found := Project.ofFiles files
  found.link (found.resolver manifest)

/-- The graph of the files of a project. -/
def projectGraph (files : List SourceFile) (manifest : Manifest) : Graph :=
  let found := Project.ofFiles files
  (found.link (found.resolver manifest)).graph

theorem graph_linkedProject (files : List SourceFile) (manifest : Manifest) :
    (linkedProject files manifest).graph = projectGraph files manifest := rfl

theorem linked_linkedProject (files : List SourceFile) (manifest : Manifest) :
    (linkedProject files manifest).Linked :=
  Project.linked_link _ _

theorem ids_linkedProject (files : List SourceFile) (manifest : Manifest) :
    (linkedProject files manifest).ids = (Project.ofFiles files).ids :=
  Project.ids_link _

theorem closed_projectGraph (files : List SourceFile) (manifest : Manifest) :
    (projectGraph files manifest).Closed := by
  rw [← graph_linkedProject]
  exact Project.closed_graph _

theorem ids_projectGraph (files : List SourceFile) (manifest : Manifest) :
    (projectGraph files manifest).ids = (Project.ofFiles files).ids := by
  rw [projectGraph, Project.ids_graph, Project.ids_link]

/-- The linked module of a file holds what was extracted from it. -/
theorem facts?_linkedProject {file : SourceFile} (hpaths : (files.map (·.path)).Nodup)
    (hfile : file ∈ files) (hsource : file.fileClass = .source) {extraction : Extraction}
    (hextract : file.extract = .ok extraction) (manifest : Manifest) :
    (linkedProject files manifest).facts? file.path = some
      { language := file.language
        extraction := extraction
        edges := extraction.imports.map fun i =>
          ⟨i, ((Project.ofFiles files).resolver manifest).resolve i file.path file.language⟩ } := by
  rw [linkedProject, Project.facts?_link, Project.facts?_ofFiles hpaths hfile hsource hextract]
  rfl

/-- What is known about a linked module was extracted from a file of that name. -/
theorem exists_file_of_facts? {manifest : Manifest} {facts : Facts}
    (h : (linkedProject files manifest).facts? id = some facts) :
    ∃ file ∈ files, file.path = id ∧ file.extract = .ok facts.extraction ∧
      facts.edges = facts.extraction.imports.map fun i =>
        ⟨i, ((Project.ofFiles files).resolver manifest).resolve i id facts.language⟩ := by
  rw [linkedProject, Project.facts?_link, Option.map_eq_some_iff] at h
  obtain ⟨found, hfound, rfl⟩ := h
  obtain ⟨file, hfile, hpath, -, hextract⟩ := Project.exists_of_facts?_ofFiles hfound
  exact ⟨file, hfile, hpath, hextract, rfl⟩

/-- The resolver of a linked project is that of its files. -/
theorem resolver_linkedProject (files : List SourceFile) (manifest : Manifest) :
    (linkedProject files manifest).resolver manifest
      = (Project.ofFiles files).resolver manifest := by
  rw [Project.resolver, Project.resolver, ids_linkedProject]

/-! ## What the metrics list and count -/

/-- The metrics of some files are those of their linked project, with warnings about the files that
are rejected. -/
theorem analyzeProject_eq (files : List SourceFile) (manifest : Manifest)
    (settings : AnalysisSettings) :
    (analyzeProject files manifest settings : Metrics α)
      = { (linkedProject files manifest).metrics ((linkedProject files manifest).resolver manifest)
            settings with
          warnings := (Project.rejections files).map Rejection.warning } := by
  rw [resolver_linkedProject]
  unfold analyzeProject
  dsimp only
  split
  · rename_i hempty
    rw [← ids_linkedProject files manifest] at hempty
    rw [Project.metrics_of_isEmpty hempty]
  · rfl

/-- The cycles are those of the graph. -/
theorem cycles_analyzeProject (files : List SourceFile) (manifest : Manifest)
    (settings : AnalysisSettings) :
    (analyzeProject files manifest settings : Metrics α).cycles
      = (projectGraph files manifest).cycles := by
  rw [analyzeProject_eq]
  rfl

/-- The unreachable modules are those of the graph. -/
theorem unreachable_analyzeProject (files : List SourceFile) (manifest : Manifest)
    (settings : AnalysisSettings) :
    (analyzeProject files manifest settings : Metrics α).unreachable
      = (projectGraph files manifest).unreachable settings.entryPoints := by
  rw [analyzeProject_eq]
  rfl

/-- The exports that are reported are those of the linked modules. -/
theorem deadExports_analyzeProject (files : List SourceFile) (manifest : Manifest)
    (settings : AnalysisSettings) :
    (analyzeProject files manifest settings : Metrics α).deadExports
      = (linkedProject files manifest).deadExports (projectGraph files manifest)
        ((linkedProject files manifest).resolver manifest) settings := by
  rw [analyzeProject_eq]
  rfl

/-- The modules that are counted are those of the graph. -/
theorem moduleCount_analyzeProject (files : List SourceFile) (manifest : Manifest)
    (settings : AnalysisSettings) :
    (analyzeProject files manifest settings : Metrics α).moduleCount
      = (projectGraph files manifest).ids.length := by
  rw [analyzeProject_eq, Graph.length_ids]
  rfl

theorem warnings_analyzeProject (files : List SourceFile) (manifest : Manifest)
    (settings : AnalysisSettings) :
    (analyzeProject files manifest settings : Metrics α).warnings
      = (Project.rejections files).map Rejection.warning := rfl

theorem ids_ofFiles_nil : (Project.ofFiles []).ids = [] := by
  refine List.eq_nil_iff_forall_not_mem.mpr fun id hid => ?_
  obtain ⟨file, hfile, -⟩ := Project.exists_of_mem_ids_ofFiles hid
  exact absurd hfile List.not_mem_nil

/-- No files have the metrics of no modules. -/
theorem analyzeProject_nil (manifest : Manifest) (settings : AnalysisSettings) :
    (analyzeProject [] manifest settings : Metrics α) = .empty := by
  have hrejections : Project.rejections [] = [] := Project.rejections_filter_isReadable []
  have hempty : (linkedProject [] manifest).ids.isEmpty = true := by
    rw [ids_linkedProject, ids_ofFiles_nil]
    rfl
  rw [analyzeProject_eq, Project.metrics_of_isEmpty hempty, hrejections]
  rfl

/-! ## What the findings are about -/

/-- The findings about a project are about its files. -/
theorem within_analyzeProject (files : List SourceFile) (manifest : Manifest)
    (settings : AnalysisSettings) :
    (analyzeProject files manifest settings : Metrics α).Within fun path =>
      path ∈ files.map (·.path) := by
  have hmodules : ∀ path ∈ (linkedProject files manifest).ids, path ∈ files.map (·.path) := by
    intro path hpath
    rw [ids_linkedProject] at hpath
    obtain ⟨file, hfile, rfl⟩ := Project.exists_of_mem_ids_ofFiles hpath
    exact List.mem_map_of_mem hfile
  rw [analyzeProject_eq]
  apply ((Project.within_metrics _ _ _).imp hmodules).withWarnings
  intro w hw
  obtain ⟨rejection, hrejection, rfl⟩ := List.mem_map.mp hw
  have hpath := (Project.map_path_rejections_perm files).subset
    (List.mem_map_of_mem hrejection)
  obtain ⟨file, hfile, hsame⟩ := List.mem_map.mp hpath
  exact List.mem_map.mpr ⟨file, (List.mem_filter.mp hfile).1, hsame⟩

/-- The metrics of every project are regular. -/
theorem regular_analyzeProject (files : List SourceFile) (manifest : Manifest)
    (settings : AnalysisSettings) :
    (analyzeProject files manifest settings : Metrics α).Regular := by
  rw [analyzeProject_eq]
  exact (Project.regular_metrics _ _ _).withWarnings _

end

end ModuleAtlas
