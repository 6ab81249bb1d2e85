import ModuleAtlas.Proofs.Report.Item
import ModuleAtlas.Proofs.Text.Lines

/-!
# The layout of a report in Markdown

If each text in a report stands on one line, the lines that are read from the report in Markdown are
the lines that were written (`lines_markdownText`). They fall into sections, and the section on a list
has one line for each element, in the order of the list; a list without elements has no section, that
on cycles apart (`sections_markdownLines`).
-/

namespace ModuleAtlas.Report

open Markdown (sections shown listed opensSection IsContent Reads)

variable {p : String → Prop} {r : Report} {text : String} {cycles : List Cycle}

/-! ## The texts of a report -/

/-- Every text in a report satisfies a condition. -/
structure EveryText (p : String → Prop) (r : Report) : Prop where
  project : p r.project
  fanout : ∀ module ∈ r.metrics.fanout.maxModule, p module
  import_source : ∀ source ∈ r.metrics.complexity.maxImport, p source
  importer : ∀ module ∈ r.metrics.complexity.maxModule, p module
  coupling : ∀ module ∈ r.metrics.coupling.maxAfferentModule, p module
  cycles : ∀ c ∈ r.metrics.cycles, ∀ module ∈ c.modules, p module
  deadExports : ∀ e ∈ r.metrics.deadExports, p e.module ∧ p e.name
  unreachable : ∀ module ∈ r.metrics.unreachable, p module
  warnings : ∀ w ∈ r.metrics.warnings, p w.path ∧ p w.message

theorem EveryText.imp {q : String → Prop} (himp : ∀ text, p text → q text) (h : r.EveryText p) :
    r.EveryText q where
  project := himp _ h.project
  fanout module hmem := himp _ (h.fanout module hmem)
  import_source source hmem := himp _ (h.import_source source hmem)
  importer module hmem := himp _ (h.importer module hmem)
  coupling module hmem := himp _ (h.coupling module hmem)
  cycles c hc module hmem := himp _ (h.cycles c hc module hmem)
  deadExports e he := (h.deadExports e he).imp (himp _) (himp _)
  unreachable module hmem := himp _ (h.unreachable module hmem)
  warnings w hw := (h.warnings w hw).imp (himp _) (himp _)

/-! ## The lines of a text -/

/-- A text on one line. -/
def OneLine (text : String) : Prop := '\n' ∉ text.toList

instance (text : String) : Decidable (OneLine text) :=
  inferInstanceAs (Decidable ('\n' ∉ text.toList))

@[simp] theorem oneLine_append {first second : String} :
    OneLine (first ++ second) ↔ OneLine first ∧ OneLine second := by
  simp [OneLine]

@[simp] theorem oneLine_repr (n : ℕ) : OneLine n.repr :=
  Json.not_mem_toString (by decide) n

theorem oneLine_join {sep : String} {pieces : List String} (hsep : OneLine sep)
    (hpieces : ∀ piece ∈ pieces, OneLine piece) : OneLine (Text.join sep pieces) := by
  induction pieces with
  | nil => exact List.not_mem_nil
  | cons piece pieces ih =>
    obtain ⟨hpiece, hpieces⟩ := List.forall_mem_cons.mp hpieces
    by_cases hmore : pieces = []
    · rwa [hmore]
    · rw [Text.join_cons _ _ hmore]
      simp [hpiece, hsep, ih hpieces]

theorem oneLine_row {cells : List String} (hcells : ∀ cell ∈ cells, OneLine cell) :
    OneLine (row cells) := by
  have hbar : OneLine " | " := by decide
  simp +decide [row, oneLine_join hbar hcells]

theorem oneLine_code (h : OneLine text) : OneLine (code text) := by
  simp +decide [code, h]

theorem oneLine_orDash {name : Option String} (h : ∀ text ∈ name, OneLine text) :
    OneLine (orDash name) := by
  cases name with
  | none => decide
  | some text => exact h text rfl

/-- A number with decimal places stands on one line. -/
theorem oneLine_twoPlaces (x : Float) : OneLine (twoPlaces x) := by
  unfold twoPlaces Decimal.fixed
  split
  · decide
  · split <;> decide
  · rename_i negative _ _ _
    have hzeros : ∀ n, OneLine (String.ofList (List.replicate n '0')) := by
      intro n hmem
      rw [String.toList_ofList, List.mem_replicate] at hmem
      exact absurd hmem.2 (by decide)
    cases negative <;> simp +decide [Decimal.paddedDigits, hzeros]

/-! ## The lines of a report -/

theorem oneLine_headLines (h : r.EveryText OneLine) : ∀ line ∈ headLines r, OneLine line := by
  have hproject := h.project
  have hfanout := oneLine_orDash h.fanout
  have himport := oneLine_orDash h.import_source
  have hcoupling := oneLine_orDash h.coupling
  simp +decide [headLines, oneLine_row, oneLine_twoPlaces, hproject, hfanout, himport, hcoupling]

theorem oneLine_deadExportLine {e : DeadExport} (h : OneLine e.module ∧ OneLine e.name) :
    OneLine (deadExportLine e) := by
  have hkind : OneLine e.kind.name := by cases e.kind <;> decide
  refine oneLine_row ?_
  simp [h.1, oneLine_code h.2, hkind]

theorem oneLine_cycleLine {c : Cycle} (n : ℕ) (h : ∀ module ∈ c.modules, OneLine module) :
    OneLine (cycleLine n c) := by
  have hpath : OneLine c.path := by
    rw [Cycle.path_eq_join]
    refine oneLine_join (by decide) ?_
    exact List.forall_mem_append.mpr ⟨h, fun module hmem => h module (List.mem_of_mem_take hmem)⟩
  simp +decide [cycleLine, oneLine_code hpath]

theorem oneLine_listed {heading : String} {opening items : List String} (hheading : OneLine heading)
    (hopening : ∀ line ∈ opening, OneLine line) (hitems : ∀ line ∈ items, OneLine line) :
    ∀ line ∈ listed heading opening items, OneLine line := by
  unfold listed
  split
  · exact List.forall_mem_nil _
  · simp only [List.forall_mem_append, List.forall_mem_cons]
    exact ⟨⟨⟨⟨hheading, by decide, by simp⟩, hopening⟩, hitems⟩, by decide, by simp⟩

theorem deadExportLines_eq (exports : List DeadExport) :
    deadExportLines exports = listed ("## Dead Exports (" ++ toString exports.length ++ ")")
      [row ["Module", "Symbol", "Kind", "Line"], "|--------|--------|------|------|"]
      (exports.map deadExportLine) := by
  cases exports <;> rfl

theorem unreachableLines_eq (modules : List String) :
    unreachableLines modules = listed ("## Unreachable Modules (" ++ toString modules.length ++ ")")
      [] (modules.map unreachableLine) := by
  cases modules <;> rfl

theorem warningLines_eq (warnings : List Warning) :
    warningLines warnings = listed "## Warnings" [] (warnings.map warningLine) := by
  cases warnings <;> rfl

theorem mem_cycleLinesFrom {line : String} {n : ℕ}
    (h : line ∈ cycleLinesFrom n cycles) : ∃ i, ∃ c ∈ cycles, line = cycleLine i c := by
  induction cycles generalizing n with
  | nil => cases h
  | cons c cycles ih =>
    rcases List.mem_cons.mp h with rfl | h
    · exact ⟨n, c, List.mem_cons_self, rfl⟩
    · obtain ⟨i, d, hd, rfl⟩ := ih h
      exact ⟨i, d, List.mem_cons_of_mem c hd, rfl⟩

theorem oneLine_cycleLines (h : ∀ c ∈ cycles, ∀ module ∈ c.modules, OneLine module) :
    ∀ line ∈ cycleLines cycles, OneLine line := by
  have hitems : ∀ line ∈ cycleLinesFrom 1 cycles, OneLine line := by
    intro line hline
    obtain ⟨i, c, hc, rfl⟩ := mem_cycleLinesFrom hline
    exact oneLine_cycleLine i (h c hc)
  unfold cycleLines
  split
  · decide
  · simp only [List.forall_mem_append, List.forall_mem_cons]
    exact ⟨⟨⟨by decide, by decide, by simp⟩, ⟨by decide, by decide, by simp⟩, hitems⟩, by decide,
      by simp⟩

/-- The text of a report is read as the lines of the report, if each of its texts is on one line. -/
theorem lines_markdownText (h : r.EveryText OneLine) :
    Text.lines r.markdownText = markdownLines r := by
  have hexports : ∀ line ∈ deadExportLines r.metrics.deadExports, OneLine line := by
    rw [deadExportLines_eq]
    refine oneLine_listed (by simp +decide) (by decide) ?_
    exact List.forall_mem_map.mpr fun e he => oneLine_deadExportLine (h.deadExports e he)
  have hunreachable : ∀ line ∈ unreachableLines r.metrics.unreachable, OneLine line := by
    rw [unreachableLines_eq]
    refine oneLine_listed (by simp +decide) (by decide) (List.forall_mem_map.mpr ?_)
    exact fun module hmem => by simp +decide [unreachableLine, h.unreachable module hmem]
  have hwarnings : ∀ line ∈ warningLines r.metrics.warnings, OneLine line := by
    rw [warningLines_eq]
    refine oneLine_listed (by decide) (by decide) (List.forall_mem_map.mpr fun w hw => ?_)
    obtain ⟨hpath, hmessage⟩ := h.warnings w hw
    simp +decide [warningLine, oneLine_code hpath, hmessage]
  refine Text.lines_flatMap ?_
  simp only [markdownLines, List.forall_mem_append]
  exact ⟨⟨⟨⟨⟨oneLine_headLines h, oneLine_cycleLines h.cycles⟩, hexports⟩, hunreachable⟩,
    hwarnings⟩, by decide⟩

/-! ## The sections of a report -/

/-- What is found in the sections on the lists of a report: one line for each element, in the order
of the list. Only the section on cycles is there if its list is empty. -/
def listSections (m : Metrics Float) : List (String × List String) :=
  ("## Circular Dependencies",
    if m.cycles = [] then ["No circular dependencies detected."]
    else "The following circular dependencies were detected:" :: m.cycles.mapIdx fun i c =>
      toString (i + 1) ++ ". \x60" ++ Text.join " -> " (c.modules ++ c.modules.take 1) ++ "\x60") ::
  (shown ("## Dead Exports (" ++ toString m.deadExports.length ++ ")")
    ["| Module | Symbol | Kind | Line |", "|--------|--------|------|------|"]
    (m.deadExports.map fun e => "| " ++ e.module ++ " | \x60" ++ e.name ++ "\x60 | " ++
      e.kind.name ++ " | " ++ toString e.line ++ " |") ++
  shown ("## Unreachable Modules (" ++ toString m.unreachable.length ++ ")") []
    (m.unreachable.map fun module => "- " ++ module) ++
  shown "## Warnings" [] (m.warnings.map fun w => "- \x60" ++ w.path ++ "\x60: " ++ w.message))

theorem deadExportLine_eq (e : DeadExport) :
    deadExportLine e = "| " ++ e.module ++ " | \x60" ++ e.name ++ "\x60 | " ++ e.kind.name ++
      " | " ++ toString e.line ++ " |" := by
  have hopen : " | \x60" = " | " ++ "\x60" := by decide
  have hclose : "\x60 | " = "\x60" ++ " | " := by decide
  rw [hopen, hclose]
  simp only [deadExportLine, row, code, Text.join, String.append_assoc]

theorem warningLine_eq (w : Warning) :
    warningLine w = "- \x60" ++ w.path ++ "\x60: " ++ w.message := by
  have hopen : "- \x60" = "- " ++ "\x60" := by decide
  have hclose : "\x60: " = "\x60" ++ ": " := by decide
  rw [hopen, hclose]
  simp only [warningLine, code, String.append_assoc]

theorem cycleLinesFrom_eq_mapIdx (n : ℕ) (cycles : List Cycle) :
    cycleLinesFrom (n + 1) cycles = cycles.mapIdx fun i c => toString (n + i + 1) ++ ". \x60" ++
      Text.join " -> " (c.modules ++ c.modules.take 1) ++ "\x60" := by
  have hopen : ". \x60" = ". " ++ "\x60" := by decide
  induction cycles generalizing n with
  | nil => rfl
  | cons c cycles ih =>
    have hplace : ∀ i, n + (i + 1) + 1 = n + 1 + i + 1 := fun i => by omega
    rw [cycleLinesFrom, ih, List.mapIdx_cons, hopen, cycleLine, code, Cycle.path_eq_join]
    simp only [String.append_assoc, Nat.add_zero, hplace]

/-- The sections on the lists, with the lines of a report in them. -/
theorem listSections_eq (m : Metrics Float) : listSections m =
    ("## Circular Dependencies", if m.cycles = [] then ["No circular dependencies detected."]
      else "The following circular dependencies were detected:" :: cycleLinesFrom 1 m.cycles) ::
    (shown ("## Dead Exports (" ++ toString m.deadExports.length ++ ")")
      ["| Module | Symbol | Kind | Line |", "|--------|--------|------|------|"]
      (m.deadExports.map deadExportLine) ++
    shown ("## Unreachable Modules (" ++ toString m.unreachable.length ++ ")") []
      (m.unreachable.map unreachableLine) ++
    shown "## Warnings" [] (m.warnings.map warningLine)) := by
  have hcycles := cycleLinesFrom_eq_mapIdx 0 m.cycles
  simp only [Nat.zero_add] at hcycles
  rw [hcycles, funext deadExportLine_eq, funext warningLine_eq]
  rfl

theorem reads_cycleLines (cycles : List Cycle) : Reads (cycleLines cycles)
    [("## Circular Dependencies", if cycles = [] then ["No circular dependencies detected."]
      else "The following circular dependencies were detected:" :: cycleLinesFrom 1 cycles)] := by
  have hheading : opensSection "## Circular Dependencies" = true := by decide
  have hitems : ∀ line ∈ cycleLinesFrom 1 cycles, IsContent line := by
    intro line hline
    obtain ⟨i, c, -, rfl⟩ := mem_cycleLinesFrom hline
    exact isContent_cycleLine i c
  by_cases hempty : cycles = []
  · rw [if_pos hempty, hempty]
    have hbody : ∀ line ∈ ["", "No circular dependencies detected.", ""],
        opensSection line = false := by decide
    exact Markdown.reads_section hheading hbody
  · rw [if_neg hempty]
    have hbody : ∀ line ∈ ["", "The following circular dependencies were detected:", ""] ++
        cycleLinesFrom 1 cycles ++ [""], opensSection line = false := by
      simp only [List.forall_mem_append]
      exact ⟨⟨by decide, fun line hline => (hitems line hline).opensSection⟩, by decide⟩
    have hfilter : (["", "The following circular dependencies were detected:", ""] ++
        cycleLinesFrom 1 cycles ++ [""]).filter (· ≠ "")
        = "The following circular dependencies were detected:" :: cycleLinesFrom 1 cycles := by
      rw [List.filter_append, List.filter_append, Markdown.filter_content hitems]
      simp
    have hlines : cycleLines cycles = "## Circular Dependencies" ::
        (["", "The following circular dependencies were detected:", ""] ++ cycleLinesFrom 1 cycles ++
          [""]) := by
      simp [cycleLines, hempty]
    have hreads := Markdown.reads_section hheading hbody
    rw [hfilter] at hreads
    rwa [hlines]

theorem reads_deadExportLines (exports : List DeadExport) : Reads (deadExportLines exports)
    (shown ("## Dead Exports (" ++ toString exports.length ++ ")")
      ["| Module | Symbol | Kind | Line |", "|--------|--------|------|------|"]
      (exports.map deadExportLine)) := by
  have hcolumns : row ["Module", "Symbol", "Kind", "Line"] = "| Module | Symbol | Kind | Line |" := by
    decide
  rw [deadExportLines_eq, hcolumns]
  refine Markdown.reads_listed ?_ ?_ ?_
  · rw [String.append_assoc]
    exact Markdown.opensSection_append (by decide) _
  · have hbar : ∀ line ∈ ["| Module | Symbol | Kind | Line |",
        "|--------|--------|------|------|"], line.toList.head? = some '|' := by decide
    exact fun line hline => Markdown.isContent_of_head? (hbar line hline) (by decide) (by decide)
  · exact List.forall_mem_map.mpr fun e _ => isContent_deadExportLine e

theorem reads_unreachableLines (modules : List String) : Reads (unreachableLines modules)
    (shown ("## Unreachable Modules (" ++ toString modules.length ++ ")") []
      (modules.map unreachableLine)) := by
  rw [unreachableLines_eq]
  refine Markdown.reads_listed ?_ (List.forall_mem_nil _) ?_
  · rw [String.append_assoc]
    exact Markdown.opensSection_append (by decide) _
  · exact List.forall_mem_map.mpr fun module _ => Markdown.isContent_item module

theorem reads_warningLines (warnings : List Warning) :
    Reads (warningLines warnings) (shown "## Warnings" [] (warnings.map warningLine)) := by
  rw [warningLines_eq]
  refine Markdown.reads_listed (by decide) (List.forall_mem_nil _) ?_
  exact List.forall_mem_map.mpr fun w _ => isContent_warningLine w

/-- Before the sections on the lists there is a title, and a table of eleven numbers. -/
theorem exists_reads_headLines (r : Report) : ∃ table, table.length = 13 ∧
    Reads (headLines r)
      [("# Architecture Report", ["**Project:** " ++ r.project]), ("## Summary", table)] := by
  let table := ((headLines r).drop 6).dropLast
  have hlines : headLines r = listed "# Architecture Report" [] ["**Project:** " ++ r.project] ++
    listed "## Summary" [] table := rfl
  have hproject : IsContent ("**Project:** " ++ r.project) :=
    Markdown.isContent_of_head? (c := '*') (by simp) (by decide) (by decide)
  have hbar : ∀ line ∈ table, line.toList.head? = some '|' := by
    simp [table, headLines, row]
  have hcontent : ∀ line ∈ table, IsContent line := fun line hline =>
    Markdown.isContent_of_head? (hbar line hline) (by decide) (by decide)
  refine ⟨table, rfl, ?_⟩
  rw [hlines]
  exact (Markdown.reads_listed (by decide) (List.forall_mem_nil _)
      (List.forall_mem_singleton.mpr hproject)).append
    (Markdown.reads_listed (by decide) (List.forall_mem_nil _) hcontent)

theorem reads_footer :
    Reads ["---", "*Generated by archnav*"] [("---", ["*Generated by archnav*"])] := by
  have hrule : opensSection "---" = true := by decide
  have hbody : ∀ line ∈ ["*Generated by archnav*"], opensSection line = false := by decide
  exact Markdown.reads_section hrule hbody

/-- The sections of a report: those on its lists stand between a table and a footer. -/
def documentSections (r : Report) (table : List String) : List (String × List String) :=
  [("# Architecture Report", ["**Project:** " ++ r.project]), ("## Summary", table)] ++
    listSections r.metrics ++ [("---", ["*Generated by archnav*"])]

theorem sections_markdownLines (r : Report) :
    ∃ table, table.length = 13 ∧ sections (markdownLines r) = documentSections r table := by
  obtain ⟨table, hlength, hhead⟩ := exists_reads_headLines r
  have hreads := ((((hhead.append (reads_cycleLines r.metrics.cycles)).append
    (reads_deadExportLines r.metrics.deadExports)).append
    (reads_unreachableLines r.metrics.unreachable)).append
    (reads_warningLines r.metrics.warnings)).append reads_footer
  refine ⟨table, hlength, hreads.sections_eq.trans ?_⟩
  rw [documentSections, listSections_eq]
  simp only [List.append_assoc, List.cons_append, List.nil_append]

end ModuleAtlas.Report
