import ModuleAtlas.Grammar
import ModuleAtlas.Proofs.Identifier
import ModuleAtlas.Proofs.Specifier

/-!
# Names that are reported more than once

Whether an export is reported depends on its module and its name alone. So of the exports of one name
in a module, all are reported or none: a name is listed as often as the module declares it
(`filter_deadExports`). The declarations stand at different places of the file, and where every
reported name is declared once, none is listed twice (`deadExports_once_per_declaration`).
-/

namespace ModuleAtlas

/-- The module and the name of an export, by which imports tell it from others. -/
def DeadExport.symbol (x : DeadExport) : String × String := (x.module, x.name)

namespace Project

variable {p : Project} {g : Graph} {module name : String} {x y : DeadExport} {facts : Facts}
  {manifest : Manifest} {settings : AnalysisSettings}

/-! ## Exports of one name -/

/-- The exports of one name in a module are those that were extracted under it. -/
theorem filter_exports (h : p.facts? module = some facts) (name : String) :
    (p.exports.filter fun x => x.symbol = (module, name))
      = (facts.extraction.exports.filter fun e => e.name = name).map (reported module) := by
  have hother : ∀ entries : List (String × Facts), (∀ entry ∈ entries, entry.1 ≠ module) →
      (entries.flatMap fun entry => (entry.2.extraction.exports.map (reported entry.1)).filter fun x =>
        x.symbol = (module, name)) = [] := by
    intro entries hentries
    rw [List.flatMap_eq_nil_iff]
    intro entry hentry
    rw [List.filter_eq_nil_iff]
    intro x hx
    obtain ⟨e, -, rfl⟩ := List.mem_map.mp hx
    simp [DeadExport.symbol, reported, hentries entry hentry]
  obtain ⟨before, after, hsplit, hunique⟩ := Keyed.exists_entries_eq h
  rw [List.forall_mem_append] at hunique
  rw [exports, List.filter_flatMap, hsplit, List.flatMap_append, List.flatMap_cons,
    hother before hunique.1, hother after hunique.2, List.nil_append, List.append_nil, List.filter_map]
  refine congrArg _ (List.filter_congr fun e _ => ?_)
  rw [Function.comp_apply, decide_eq_decide]
  exact Prod.mk_right_inj

/-- Exports with the same module and name are used alike. -/
theorem used_congr (h : x.symbol = y.symbol) : p.Used g x ↔ p.Used g y := by
  obtain ⟨hmodule, hname⟩ := Prod.mk.inj h
  unfold Used
  rw [hmodule, hname]

/-- Of the exports of one name in a module, all are reported or none. -/
theorem filter_deadExports (hg : g.Closed) (p : Project) (manifest : Manifest)
    (settings : AnalysisSettings) (symbol : String × String) :
    let dead := p.deadExports g (p.resolver manifest) settings
    (dead.filter fun x => x.symbol = symbol) = [] ∨
      (dead.filter fun x => x.symbol = symbol) = p.exports.filter fun x => x.symbol = symbol := by
  classical
  intro dead
  have hdead : dead = p.exports.filter fun x =>
      ¬ p.Exempt g settings x.module ∧ (p.Used g x → p.Unlisted x.module) :=
    deadExports_eq_filter hg p manifest settings
  by_cases hnone : (dead.filter fun x => x.symbol = symbol) = []
  · exact .inl hnone
  · -- one of them is reported, and the others are judged like it
    obtain ⟨x, hx⟩ := List.exists_mem_of_ne_nil _ hnone
    rw [List.mem_filter, hdead, List.mem_filter, decide_eq_true_eq, decide_eq_true_eq] at hx
    obtain ⟨⟨-, hreported⟩, rfl⟩ := hx
    refine .inr ?_
    rw [hdead, List.filter_comm, List.filter_eq_self]
    intro y hy
    rw [List.mem_filter, decide_eq_true_eq] at hy
    obtain ⟨hmodule, -⟩ := Prod.mk.inj hy.2
    rw [decide_eq_true_eq, used_congr hy.2, hmodule]
    exact hreported

/-- How often a symbol is listed. -/
theorem count_map_symbol (list : List DeadExport) (symbol : String × String) :
    (list.map DeadExport.symbol).count symbol = (list.filter fun x => x.symbol = symbol).length := by
  rw [List.count_eq_countP, List.countP_map, List.countP_eq_length_filter]
  refine congrArg List.length (List.filter_congr fun x _ => ?_)
  rw [Function.comp_apply, Bool.eq_iff_iff, beq_iff_eq, decide_eq_true_eq]

/-- No symbol is listed twice exactly if all that are listed are exported once. -/
theorem nodup_map_symbol_iff (hg : g.Closed) (p : Project) (manifest : Manifest)
    (settings : AnalysisSettings) :
    let dead := p.deadExports g (p.resolver manifest) settings
    (dead.map DeadExport.symbol).Nodup ↔
      ∀ x ∈ dead, (p.exports.filter fun y => y.symbol = x.symbol).length = 1 := by
  intro dead
  rw [List.nodup_iff_count_le_one]
  simp only [count_map_symbol]
  have hall := filter_deadExports hg p manifest settings
  constructor
  · intro honce x hx
    have hmem : x ∈ dead.filter fun y => y.symbol = x.symbol :=
      List.mem_filter.mpr ⟨hx, decide_eq_true rfl⟩
    rw [← (hall x.symbol).resolve_left (List.ne_nil_of_mem hmem)]
    exact le_antisymm (honce x.symbol) (List.length_pos_of_mem hmem)
  · intro honce symbol
    rcases hall symbol with hnone | hsame
    · rw [hnone]
      exact Nat.zero_le 1
    · rw [hsame]
      by_cases hnone : (p.exports.filter fun x => x.symbol = symbol) = []
      · rw [hnone]
        exact Nat.zero_le 1
      · obtain ⟨x, hx⟩ := List.exists_mem_of_ne_nil _ (hsame ▸ hnone)
        obtain ⟨hdead, hsymbol⟩ := List.mem_filter.mp hx
        rw [← of_decide_eq_true hsymbol]
        exact (honce x hdead).le

end Project

section Files

variable {α : Type} [Average α] [Syntax.Parser] {files : List SourceFile} {file : SourceFile}
  {manifest : Manifest} {id : String} {facts : Facts}

/-- The exports of a file stand at different places of its text. -/
theorem SourceFile.standApart {text : String} {e : Extraction} (hconforms : file.Conforms)
    (htext : String.fromUTF8? file.content = some text) (h : file.extract = .ok e) :
    StandApart text e.exports := by
  obtain ⟨text', htext', h⟩ := extract_eq_ok_iff.mp h
  obtain rfl : text' = text := Option.some.inj (htext'.symm.trans htext)
  obtain ⟨haccepted, rfl⟩ := extractText_eq_ok_iff.mp h
  have hdescribe := hconforms text' htext haccepted
  exact (declares_exports _ _ _).standApart hdescribe.placed fun name hmem hname =>
    hdescribe.start_lt_stop hmem (kind_mem_of_names (fun _ => hdescribe) hname hmem)

/-- The exports of a module stand at different places of its file. -/
theorem standApart_of_facts? (h : (linkedProject files manifest).facts? id = some facts) :
    ∃ file ∈ files, file.path = id ∧ ∃ text, String.fromUTF8? file.content = some text ∧
      (file.Conforms → StandApart text facts.extraction.exports) := by
  obtain ⟨file, hfile, hpath, hextract, -⟩ := exists_file_of_facts? h
  obtain ⟨text, htext, -⟩ := SourceFile.extract_eq_ok_iff.mp hextract
  exact ⟨file, hfile, hpath, text, htext, fun hconforms =>
    SourceFile.standApart hconforms htext hextract⟩

/-- A report lists each declaration at most once. Of the declarations of one name in a module, which
stand at different places of its file, it lists all in source order or none, so no name is listed
twice exactly if every name that is listed is declared once. -/
theorem deadExports_once_per_declaration (files : List SourceFile) (manifest : Manifest)
    (settings : AnalysisSettings) :
    let p := linkedProject files manifest
    let dead := (analyzeProject files manifest settings : Metrics α).deadExports
    (∀ x ∈ dead, x.module ∈ p.ids) ∧
    (∀ id facts, p.facts? id = some facts →
      (∀ name,
        let declared := facts.extraction.exports.filter fun e => e.name = name
        let listed := dead.filter fun x => x.symbol = (id, name)
        listed = [] ∨ listed = declared.map (Project.reported id)) ∧
      ∃ file ∈ files, file.path = id ∧ ∃ text, String.fromUTF8? file.content = some text ∧
        (file.Conforms → StandApart text facts.extraction.exports)) ∧
    ((dead.map DeadExport.symbol).Nodup ↔
      ∀ x ∈ dead, (p.exports.filter fun y => y.symbol = x.symbol).length = 1) := by
  intro p dead
  have hg := closed_projectGraph files manifest
  have hdead : dead = p.deadExports (projectGraph files manifest) (p.resolver manifest) settings :=
    deadExports_analyzeProject files manifest settings
  rw [hdead]
  refine ⟨fun x hx => Project.module_mem_ids_of_mem_deadExports hx, fun id facts hfacts =>
    ⟨fun name => ?_, standApart_of_facts? hfacts⟩, Project.nodup_map_symbol_iff hg p manifest settings⟩
  dsimp only
  rw [← Project.filter_exports hfacts]
  exact Project.filter_deadExports hg p manifest settings (id, name)

end Files

/-- A module that declares a function twice, first with its signature alone. -/
def overloadedModule : SourceFile where
  path := "m.ts"
  language := .typeScript
  content := "export function f(a: string): void;\nexport function f(a) \x7b\x7d\n".toUTF8

/-- Nothing is imported, and both declarations are exports. -/
theorem extract_overloadedModule : ∃ e, overloadedModule.extract = .ok e ∧ e.imports = [] ∧
    e.exports = [⟨"f", .function, 1⟩, ⟨"f", .function, 2⟩] := by
  have hread : overloadedModule.extract.toOption.map (fun e => (e.imports, e.exports))
      = some ([], [⟨"f", .function, 1⟩, ⟨"f", .function, 2⟩]) := by
    decide +kernel
  obtain ⟨e, hextract, heq⟩ := SourceFile.exists_extract_of_map hread
  obtain ⟨himports, hexports⟩ := Prod.mk.inj heq
  exact ⟨e, hextract, himports, hexports⟩

/-- The module by itself, as it is linked. -/
theorem facts?_overloadedModule :
    ∃ facts, (linkedProject [overloadedModule] {}).facts? "m.ts" = some facts ∧
      facts.language = .typeScript ∧
      facts.extraction.exports = [⟨"f", .function, 1⟩, ⟨"f", .function, 2⟩] := by
  obtain ⟨e, hextract, -, hexports⟩ := extract_overloadedModule
  have hpaths : ([overloadedModule].map (·.path)).Nodup := List.nodup_singleton _
  exact ⟨_, facts?_linkedProject hpaths List.mem_cons_self rfl hextract {}, rfl, hexports⟩

theorem listed_overloadedModule :
    let p := linkedProject [overloadedModule] {}
    let dead := (analyzeProject [overloadedModule] {} {} : Metrics ℚ).deadExports
    ∃ facts, p.facts? "m.ts" = some facts ∧
      (let declared := facts.extraction.exports.filter fun e => e.name = "f"
        let listed := dead.filter fun x => x.symbol = ("m.ts", "f")
        declared.length = 2 ∧ (listed = [] ∨ listed = declared.map (Project.reported "m.ts"))) ∧
      ∃ file ∈ [overloadedModule], file.path = "m.ts" ∧
        ∃ text, String.fromUTF8? file.content = some text ∧
          StandApart text facts.extraction.exports := by
  intro p dead
  have hconforms : overloadedModule.Conforms := by decide +kernel
  obtain ⟨facts, hfacts, -, hexports⟩ := facts?_overloadedModule
  obtain ⟨-, hmodules, -⟩ := deadExports_once_per_declaration (α := ℚ) [overloadedModule] {} {}
  obtain ⟨hnames, hplaces⟩ := hmodules "m.ts" facts hfacts
  obtain ⟨file, hfile, hpath, text, htext, hstand⟩ := hplaces
  refine ⟨facts, hfacts, ⟨?_, hnames "f"⟩, file, hfile, hpath, text, htext, ?_⟩
  swap
  · obtain rfl := List.mem_singleton.mp hfile
    exact hstand hconforms
  rw [hexports]
  decide

/-- Both declarations are listed, so one symbol is listed twice. -/
theorem repeated_overloadedModule :
    let dead := (analyzeProject [overloadedModule] {} {} : Metrics ℚ).deadExports
    ⟨"m.ts", "f", .function, 1⟩ ∈ dead ∧ ⟨"m.ts", "f", .function, 2⟩ ∈ dead ∧
      ¬ (dead.map DeadExport.symbol).Nodup := by
  intro dead
  obtain ⟨facts, hfacts, hlanguage, hexports⟩ := facts?_overloadedModule
  have hlisted : ∀ e ∈ facts.extraction.exports, Project.reported "m.ts" e ∈ dead := by
    intro e he
    rw [show dead = _ from deadExports_analyzeProject _ _ _,
      Project.mem_deadExports (closed_projectGraph _ _)]
    refine ⟨Project.mem_exports.mpr ⟨facts, hfacts, e, he, rfl⟩, ?_, ?_⟩
    · rintro (⟨hignored, -⟩ | ⟨hgo, -⟩)
      · cases hignored
      · have hlanguage' := (Project.isGo_iff hfacts).mp hgo
        rw [hlanguage] at hlanguage'
        cases hlanguage'
    · -- the only file has no imports
      refine fun hused => absurd hused (not_used_of_forall fun file hfile found hfound i hi => ?_)
      obtain ⟨e, hextract, himports, -⟩ := extract_overloadedModule
      obtain rfl := List.mem_singleton.mp hfile
      rw [hextract] at hfound
      cases hfound
      rw [himports] at hi
      cases hi
  rw [hexports] at hlisted
  have hfirst := hlisted _ List.mem_cons_self
  have hsecond := hlisted _ (List.mem_cons_of_mem _ List.mem_cons_self)
  refine ⟨hfirst, hsecond, fun hnodup => ?_⟩
  have hsame := List.inj_on_of_nodup_map hnodup hfirst hsecond rfl
  cases hsame

end ModuleAtlas
