import ModuleAtlas.Proofs.EntryPoint
import ModuleAtlas.Proofs.Resolver
import ModuleAtlas.Proofs.Text.Sorted

/-!
# Which exports are reported as unused

Every module of the graph is visited once, so what the imports use does not depend on the order of
the visits: an export is reported unless it is exempt or used, with one exception. The package of a
Go file is looked up among the files that end in `.go`. A Go module with another name, such as
`lib/X.GO`, is not among them, and its exports are reported even though an import of that very
module names them.

* `Shows` : which modules an import of a module shows.
* `Used`, `Exempt` : why an export is not reported.
* `Unlisted` : the Go modules that are missing from their own package.
* `deadExports_eq_filter` : the report for every closed graph.
-/

namespace ModuleAtlas.Project

variable {p : Project} {g : Graph} {manifest : Manifest} {settings : AnalysisSettings}
  {importer : Facts} {module name target id : String} {x : DeadExport}

/-! ## The specification -/

/-- An export of a module as it would be reported. -/
def reported (id : String) (e : Export) : DeadExport := ⟨id, e.name, e.kind, e.line⟩

/-- All exports of a project, by module and in source order. -/
def exports (p : Project) : List DeadExport :=
  p.modules.entries.flatMap fun (id, facts) => facts.extraction.exports.map (reported id)

/-- A module written in Go. -/
def IsGo (p : Project) (id : String) : Prop :=
  ∃ facts, p.facts? id = some facts ∧ facts.language = .go

/-- An import of a module shows the module itself, and in Go all files of its directory that end in
`.go`. -/
def Shows (p : Project) (target module : String) : Prop :=
  module = target ∨ p.IsGo target ∧ module ∈ p.ids ∧ Text.endsWith ".go" module = true ∧
    Path.parent module = Path.parent target

/-- An import in a module of the graph shows the export, and it takes everything, or it names the
export, or the name occurs in the importing module. -/
def Used (p : Project) (g : Graph) (x : DeadExport) : Prop :=
  ∃ id ∈ g.ids, ∃ importer, p.facts? id = some importer ∧ ∃ e ∈ importer.edges, ∃ target,
    e.target? = some target ∧ p.Shows target x.module ∧
    (e.statement.wildcard = true ∨ x.name ∈ e.statement.names ∨
      x.name ∈ importer.extraction.identifiers)

/-- Exports of entry points may be left out, and those of a single Go package are. -/
def Exempt (p : Project) (g : Graph) (settings : AnalysisSettings) (id : String) : Prop :=
  settings.ignoreEntryExports = true ∧ id ∈ g.entryPoints settings.entryPoints ∨
  p.IsGo id ∧ ∀ a b, p.IsGo a → p.IsGo b → Path.parent a = Path.parent b

/-- A Go module that is missing from its package, because its name does not end in `.go`. -/
def Unlisted (p : Project) (id : String) : Prop := p.IsGo id ∧ Text.endsWith ".go" id = false

/-! ## What an import shows -/

theorem mem_ids_iff : id ∈ p.ids ↔ ∃ facts, p.facts? id = some facts := Keyed.mem_keys_iff

theorem isGo_iff {facts : Facts} (h : p.facts? id = some facts) :
    p.IsGo id ↔ facts.language = .go := by
  simp only [IsGo, h, Option.some.injEq, exists_eq_left']

/-- A Go module shows the files of its directory that end in `.go`, be it among them or not. -/
theorem mem_shown_of_isGo (hgo : p.IsGo target) :
    module ∈ p.shown (p.resolver manifest) target ↔ module ∈ p.ids ∧
      Text.endsWith ".go" module = true ∧ Path.parent module = Path.parent target := by
  obtain ⟨facts, hfacts, hlang⟩ := hgo
  simp only [shown, hfacts, if_pos hlang, Resolver.goPackageMembers]
  exact Resolver.mem_goFilesIn_ofFiles

/-- Any other module shows itself. -/
theorem mem_shown_of_not_isGo (hmodule : module ∈ p.ids) (hgo : ¬ p.IsGo target) :
    module ∈ p.shown (p.resolver manifest) target ↔ module = target := by
  rw [shown]
  cases htarget : p.facts? target with
  | none =>
    refine iff_of_false List.not_mem_nil ?_
    rintro rfl
    obtain ⟨facts, hfacts⟩ := mem_ids_iff.mp hmodule
    rw [htarget] at hfacts
    cases hfacts
  | some facts =>
    have hlang : ¬ facts.language = .go := fun h => hgo ((isGo_iff htarget).mpr h)
    simp only [if_neg hlang, List.mem_singleton]

/-- Among the modules of the project, an import shows what it should, less the unlisted ones. -/
theorem mem_shown (hmodule : module ∈ p.ids) :
    module ∈ p.shown (p.resolver manifest) target ↔
      p.Shows target module ∧ ¬ p.Unlisted module := by
  by_cases hgo : p.IsGo target
  · rw [mem_shown_of_isGo hgo]
    constructor
    · rintro ⟨hid, hends, hparent⟩
      refine ⟨Or.inr ⟨hgo, hid, hends, hparent⟩, fun hunlisted => ?_⟩
      rw [hunlisted.2] at hends
      cases hends
    · rintro ⟨rfl | ⟨-, hshown⟩, hlisted⟩
      · -- the module itself is in its package only if its name ends in `.go`
        exact ⟨hmodule, (Bool.not_eq_false _).mp fun hends => hlisted ⟨hgo, hends⟩, rfl⟩
      · exact hshown
  · rw [mem_shown_of_not_isGo hmodule hgo]
    constructor
    · rintro rfl
      exact ⟨Or.inl rfl, fun hunlisted => hgo hunlisted.1⟩
    · rintro ⟨rfl | ⟨hgo', -⟩, -⟩
      · rfl
      · exact absurd hgo' hgo

/-! ## What the imports use -/

theorem names_iff {e : ImportEdge} : names importer e name = true ↔
    e.statement.wildcard = true ∨ name ∈ e.statement.names ∨
      name ∈ importer.extraction.identifiers := by
  simp only [names, Extraction.uses, Bool.or_eq_true, List.contains_iff_mem, or_assoc]

theorem mem_exports : x ∈ p.exports ↔ ∃ facts, p.facts? x.module = some facts ∧
    ∃ e ∈ facts.extraction.exports, reported x.module e = x := by
  simp only [exports, List.mem_flatMap, List.mem_map, Prod.exists, facts?, Keyed.find?_eq_some_iff]
  constructor
  · rintro ⟨id, facts, hentry, e, he, rfl⟩
    exact ⟨facts, hentry, e, he, rfl⟩
  · rintro ⟨facts, hentry, e, he, hx⟩
    exact ⟨x.module, facts, hentry, e, he, hx⟩

theorem mem_usedBy {r : Resolver} (hx : x ∈ p.exports) :
    (x.module, x.name) ∈ p.usedBy r importer ↔ ∃ e ∈ importer.edges, ∃ target,
      e.target? = some target ∧ x.module ∈ p.shown r target ∧ names importer e x.name = true := by
  obtain ⟨facts, hfacts, y, hy, hxy⟩ := mem_exports.mp hx
  have hname : y.name = x.name := congrArg DeadExport.name hxy
  rw [usedBy, List.mem_flatMap]
  refine exists_congr fun e => and_congr_right fun _ => ?_
  cases htarget : e.target? with
  | none => simp
  | some target =>
    simp only [Option.some.injEq, exists_eq_left', List.mem_flatMap]
    constructor
    · rintro ⟨id, hshown, hmem⟩
      split at hmem
      · cases hmem
      · obtain ⟨z, hz, hzx⟩ := List.mem_map.mp hmem
        obtain ⟨hid, hname⟩ := Prod.mk.injEq .. ▸ hzx
        rw [← hid, ← hname]
        exact ⟨hshown, (List.mem_filter.mp hz).2⟩
    · rintro ⟨hshown, hnames⟩
      refine ⟨x.module, hshown, ?_⟩
      rw [hfacts]
      refine List.mem_map.mpr ⟨y, List.mem_filter.mpr ⟨hy, ?_⟩, by rw [hname]⟩
      rwa [hname]

/-- All modules of the graph are visited, in whatever order: an export is found to be used exactly
if it is, unless its module is unlisted. -/
theorem mem_used (hg : g.Closed) (manifest : Manifest) (configured : List String)
    (hx : x ∈ p.exports) :
    (x.module, x.name) ∈ p.used (p.resolver manifest) (g.visits configured) ↔
      p.Used g x ∧ ¬ p.Unlisted x.module := by
  obtain ⟨facts, hfacts, -⟩ := mem_exports.mp hx
  have hmodule : x.module ∈ p.ids := mem_ids_iff.mpr ⟨facts, hfacts⟩
  rw [used, List.mem_flatMap]
  constructor
  · rintro ⟨id, hid, hmem⟩
    split at hmem
    · cases hmem
    · rename_i importer himporter
      obtain ⟨e, he, target, htarget, hshown, hnames⟩ := (mem_usedBy hx).mp hmem
      obtain ⟨hshows, hlisted⟩ := (mem_shown hmodule).mp hshown
      exact ⟨⟨id, (Graph.mem_visits hg).mp hid, importer, himporter, e, he, target, htarget, hshows,
        names_iff.mp hnames⟩, hlisted⟩
  · rintro ⟨⟨id, hid, importer, himporter, e, he, target, htarget, hshows, hnames⟩, hlisted⟩
    refine ⟨id, (Graph.mem_visits hg).mpr hid, ?_⟩
    rw [himporter]
    exact (mem_usedBy hx).mpr ⟨e, he, target, htarget, (mem_shown hmodule).mpr ⟨hshows, hlisted⟩,
      names_iff.mpr hnames⟩

/-! ## The report -/

theorem length_goDirectories_le_one_iff : p.goDirectories.length ≤ 1 ↔
    ∀ a b, p.IsGo a → p.IsGo b → Path.parent a = Path.parent b := by
  have hmem : ∀ directory, (directory ∈ (p.modules.entries.filter fun (_, facts) =>
      facts.language = .go).map fun (id, _) => Path.parent id) ↔
        ∃ id, p.IsGo id ∧ Path.parent id = directory := by
    intro directory
    simp only [List.mem_map, List.mem_filter, Prod.exists, decide_eq_true_eq, IsGo, facts?,
      Keyed.find?_eq_some_iff, exists_and_right]
  rw [goDirectories, Text.length_sortedUnique_le_one_iff]
  simp only [hmem]
  constructor
  · intro h a b ha hb
    exact h _ ⟨a, ha, rfl⟩ _ ⟨b, hb, rfl⟩
  · rintro h _ ⟨a, ha, rfl⟩ _ ⟨b, hb, rfl⟩
    exact h a b ha hb

theorem isJudged_iff {facts : Facts} (h : p.facts? id = some facts) :
    isJudged (if settings.ignoreEntryExports then g.entryPoints settings.entryPoints else [])
      (p.goDirectories.length ≤ 1) id facts = true ↔ ¬ p.Exempt g settings id := by
  rw [isJudged, Bool.and_eq_true, Exempt, not_or, ← length_goDirectories_le_one_iff, isGo_iff h]
  refine and_congr ?_ ?_
  · cases settings.ignoreEntryExports <;> simp
  · simp [imp_iff_not_or]

open Classical in
/-- The report lists exactly the exports that are neither exempt nor used, and those of unlisted
modules that are not exempt. -/
theorem deadExports_eq_filter (hg : g.Closed) (p : Project) (manifest : Manifest)
    (settings : AnalysisSettings) :
    p.deadExports g (p.resolver manifest) settings = p.exports.filter fun x =>
      ¬ p.Exempt g settings x.module ∧ (p.Used g x → p.Unlisted x.module) := by
  rw [deadExports, exports, List.filter_flatMap]
  refine List.flatMap_congr fun (id, facts) hentry => ?_
  have hfacts : p.facts? id = some facts := Keyed.find?_eq_some_iff.mpr hentry
  dsimp only
  by_cases hexempt : p.Exempt g settings id
  · -- nothing of an exempt module is reported
    rw [if_neg fun h => (isJudged_iff hfacts).mp h hexempt, eq_comm, List.filter_eq_nil_iff]
    intro x hx
    obtain ⟨e, he, rfl⟩ := List.mem_map.mp hx
    simp [reported, hexempt]
  · rw [if_pos ((isJudged_iff hfacts).mpr hexempt), List.filter_map]
    refine congrArg (List.map (reported id)) (List.filter_congr fun e he => ?_)
    have hx : reported id e ∈ p.exports := mem_exports.mpr ⟨facts, hfacts, e, he, rfl⟩
    have hused : e.name ∈ ((p.used (p.resolver manifest) (g.visits settings.entryPoints)).filter
        (·.1 = id)).map (·.2) ↔ p.Used g (reported id e) ∧ ¬ p.Unlisted id := by
      refine Iff.trans ?_ (mem_used hg manifest settings.entryPoints hx)
      simp [reported]
    rw [Bool.eq_iff_iff, Bool.not_eq_true', ← Bool.not_eq_true, List.contains_iff_mem, hused,
      Function.comp_apply, decide_eq_true_eq]
    simp [reported, hexempt]

/-- An export is reported exactly if it is neither exempt nor used, or not exempt and unlisted. -/
theorem mem_deadExports (hg : g.Closed) :
    x ∈ p.deadExports g (p.resolver manifest) settings ↔
      x ∈ p.exports ∧ ¬ p.Exempt g settings x.module ∧
        (p.Used g x → p.Unlisted x.module) := by
  classical
  rw [deadExports_eq_filter hg, List.mem_filter, decide_eq_true_eq]

open Classical in
/-- The report is the exports that are neither exempt nor used, exactly if all used exports of
unlisted modules are exempt. -/
theorem deadExports_eq_filter_iff (hg : g.Closed) (p : Project) (manifest : Manifest)
    (settings : AnalysisSettings) :
    p.deadExports g (p.resolver manifest) settings
        = p.exports.filter (fun x => ¬ (p.Exempt g settings x.module ∨ p.Used g x)) ↔
      ∀ x ∈ p.exports, p.Unlisted x.module → p.Used g x → p.Exempt g settings x.module := by
  rw [deadExports_eq_filter hg]
  constructor
  · intro heq x hx hunlisted hused
    by_contra hexempt
    have hmem : x ∈ p.exports.filter fun x =>
        ¬ p.Exempt g settings x.module ∧ (p.Used g x → p.Unlisted x.module) :=
      List.mem_filter.mpr ⟨hx, decide_eq_true ⟨hexempt, fun _ => hunlisted⟩⟩
    rw [heq, List.mem_filter, decide_eq_true_eq] at hmem
    exact hmem.2 (Or.inr hused)
  · intro h
    refine List.filter_congr fun x hx => ?_
    rw [decide_eq_decide, not_or]
    refine and_congr_right fun hexempt => ⟨fun hunlisted hused => ?_, fun hunused hused => ?_⟩
    · exact hexempt (h x hx (hunlisted hused) hused)
    · exact absurd hused hunused

open Classical in
/-- In whatever way the graph was built, and whether or not it fits the project, the report lists in
order the exports that are neither exempt nor used. It lists nothing else unless there is a used
export of an unlisted module that is not exempt; all those are listed as well. -/
theorem deadExports_ofCalls (p : Project) (calls : List GraphBuilder.Call) (manifest : Manifest)
    (settings : AnalysisSettings) :
    let g := Graph.ofCalls calls
    let report := p.deadExports g (p.resolver manifest) settings
    (report = p.exports.filter fun x =>
      ¬ p.Exempt g settings x.module ∧ (p.Used g x → p.Unlisted x.module)) ∧
    (report = p.exports.filter (fun x => ¬ (p.Exempt g settings x.module ∨ p.Used g x)) ↔
      ∀ x ∈ p.exports, p.Unlisted x.module → p.Used g x → p.Exempt g settings x.module) := by
  have hg := Graph.closed_ofCalls calls
  exact ⟨deadExports_eq_filter hg p manifest settings,
    deadExports_eq_filter_iff hg p manifest settings⟩

/-- A program that imports a Go file with an extension in capitals, next to a second Go package. -/
def capitalised : Project := ⟨.ofList [
  ("main.ts", {
    language := .typeScript
    extraction := { identifiers := ["X"] }
    edges := [⟨{ source := "./lib/X.GO", names := ["X"], line := 1 }, .internal "lib/X.GO" 0⟩] }),
  ("lib/X.GO", {
    language := .go
    extraction := { exports := [⟨"X", .function, 3⟩], identifiers := ["X"] } }),
  ("cmd/main.go", { language := .go })]⟩

/-- The calls that build its graph. -/
def capitalisedCalls : List GraphBuilder.Call :=
  [.addModule "main.ts" .typeScript, .addModule "lib/X.GO" .go, .addModule "cmd/main.go" .go,
    .addImport "main.ts" "lib/X.GO"]

open Classical in
/-- The program imports `X` by name, and `X` is reported all the same. -/
theorem deadExports_capitalised :
    let g := Graph.ofCalls capitalisedCalls
    capitalised.deadExports g (capitalised.resolver {}) {}
      ≠ capitalised.exports.filter fun x =>
        ¬ (capitalised.Exempt g {} x.module ∨ capitalised.Used g x) := by
  intro g heq
  have hgo : capitalised.IsGo "lib/X.GO" := ⟨_, rfl, rfl⟩
  have hother : capitalised.IsGo "cmd/main.go" := ⟨_, rfl, rfl⟩
  have hx : ⟨"lib/X.GO", "X", .function, 3⟩ ∈ capitalised.exports := by decide
  have hused : capitalised.Used g ⟨"lib/X.GO", "X", .function, 3⟩ :=
    ⟨"main.ts", by decide, _, rfl, _, List.mem_singleton_self _, "lib/X.GO", rfl, Or.inl rfl,
      Or.inr (Or.inl (List.mem_singleton_self _))⟩
  have hall := (deadExports_eq_filter_iff (Graph.closed_ofCalls _) _ _ _).mp heq
  rcases hall _ hx ⟨hgo, by decide⟩ hused with ⟨hignored, -⟩ | ⟨-, hsingle⟩
  · cases hignored
  · have hparent : Path.parent "lib/X.GO" ≠ Path.parent "cmd/main.go" := by decide
    exact hparent (hsingle _ _ hgo hother)

end ModuleAtlas.Project
