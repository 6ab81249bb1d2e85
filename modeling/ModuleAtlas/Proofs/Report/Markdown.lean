import ModuleAtlas.Proofs.Report.Layout

/-!
# Reports in Markdown keep their lists

The sections of a report tell its lists, if its texts have none of the marks that lines are laid out
with (`eq_of_listSections_eq`). As the sections are read from the text of the report, reports with
different lists have different texts (`markdownText_keepsLists`).
-/

namespace ModuleAtlas.Report

open Markdown (sections shown)

variable {r other : Report} {cycles others : List Cycle}

/-! ## The lists of a report -/

/-- Lists are equal if a function that tells their elements apart gives equal lists. -/
theorem eq_of_map_eq {α β : Type} {f : α → β} {items others : List α}
    (hinj : ∀ a ∈ items, ∀ b ∈ others, f a = f b → a = b) (h : items.map f = others.map f) :
    items = others := by
  induction items generalizing others with
  | nil => exact (List.map_eq_nil_iff.mp h.symm).symm
  | cons a items ih =>
    obtain ⟨b, others, rfl, hhead, htail⟩ := List.map_eq_cons_iff.mp h.symm
    have hrest : items = others := ih
      (fun c hc d hd => hinj c (List.mem_cons_of_mem a hc) d (List.mem_cons_of_mem b hd)) htail.symm
    rw [hinj a List.mem_cons_self b List.mem_cons_self hhead.symm, hrest]

theorem eq_of_cycleLinesFrom_eq (n : ℕ)
    (hcycles : ∀ c ∈ cycles, ∀ module ∈ c.modules, IsUnmarked module)
    (hothers : ∀ c ∈ others, ∀ module ∈ c.modules, IsUnmarked module)
    (h : cycleLinesFrom n cycles = cycleLinesFrom n others) : cycles = others := by
  induction cycles generalizing n others with
  | nil =>
    cases others with
    | nil => rfl
    | cons d others => cases h
  | cons c cycles ih =>
    cases others with
    | nil => cases h
    | cons d others =>
      obtain ⟨hc, hcycles⟩ := List.forall_mem_cons.mp hcycles
      obtain ⟨hd, hothers⟩ := List.forall_mem_cons.mp hothers
      obtain ⟨hhead, htail⟩ := List.cons.inj h
      rw [eq_of_cycleLine_eq n hc hd hhead, ih (n + 1) hcycles hothers htail]

/-- The section on cycles says whether there are any, and which ones. -/
theorem eq_of_cycleSection_eq
    (hcycles : ∀ c ∈ cycles, ∀ module ∈ c.modules, IsUnmarked module)
    (hothers : ∀ c ∈ others, ∀ module ∈ c.modules, IsUnmarked module)
    (h : (if cycles = [] then ["No circular dependencies detected."]
        else "The following circular dependencies were detected:" :: cycleLinesFrom 1 cycles)
      = if others = [] then ["No circular dependencies detected."]
        else "The following circular dependencies were detected:" :: cycleLinesFrom 1 others) :
    cycles = others := by
  have hfirst : "No circular dependencies detected."
      ≠ "The following circular dependencies were detected:" := by decide
  by_cases hnone : cycles = [] <;> by_cases hnone' : others = []
  · rw [hnone, hnone']
  · rw [if_pos hnone, if_neg hnone'] at h
    exact absurd (List.cons.inj h).1 hfirst
  · rw [if_neg hnone, if_pos hnone'] at h
    exact absurd (List.cons.inj h).1.symm hfirst
  · rw [if_neg hnone, if_neg hnone'] at h
    exact eq_of_cycleLinesFrom_eq 1 hcycles hothers (List.cons.inj h).2

/-! The headings of the sections that may be left out differ in their first letters. -/

theorem moduleHeading_ne_exportHeading (m n : ℕ) : "## Unreachable Modules (" ++ toString m ++ ")"
    ≠ "## Dead Exports (" ++ toString n ++ ")" := by
  intro h
  have hchars := congrArg String.toList h
  simp at hchars

theorem warningHeading_ne_exportHeading (n : ℕ) :
    "## Warnings" ≠ "## Dead Exports (" ++ toString n ++ ")" := by
  intro h
  have hchars := congrArg String.toList h
  simp at hchars

theorem warningHeading_ne_moduleHeading (n : ℕ) :
    "## Warnings" ≠ "## Unreachable Modules (" ++ toString n ++ ")" := by
  intro h
  have hchars := congrArg String.toList h
  simp at hchars

/-- The sections on the lists tell the lists, if the texts in them have no marks. -/
theorem eq_of_listSections_eq (hr : r.EveryText IsUnmarked) (hother : other.EveryText IsUnmarked)
    (h : listSections r.metrics = listSections other.metrics) :
    r.metrics.cycles = other.metrics.cycles ∧ r.metrics.deadExports = other.metrics.deadExports ∧
      r.metrics.unreachable = other.metrics.unreachable ∧
      r.metrics.warnings = other.metrics.warnings := by
  rw [listSections_eq, listSections_eq] at h
  simp only [List.append_assoc] at h
  obtain ⟨hcycles, h⟩ := List.cons.inj h
  obtain ⟨hexports, h⟩ := Markdown.shown_append_inj h
    (List.forall_mem_append.mpr ⟨Markdown.ne_of_mem_shown (moduleHeading_ne_exportHeading _ _),
      Markdown.ne_of_mem_shown (warningHeading_ne_exportHeading _)⟩)
    (List.forall_mem_append.mpr ⟨Markdown.ne_of_mem_shown (moduleHeading_ne_exportHeading _ _),
      Markdown.ne_of_mem_shown (warningHeading_ne_exportHeading _)⟩)
  obtain ⟨hmodules, h⟩ := Markdown.shown_append_inj h
    (Markdown.ne_of_mem_shown (warningHeading_ne_moduleHeading _))
    (Markdown.ne_of_mem_shown (warningHeading_ne_moduleHeading _))
  refine ⟨?_, ?_, ?_, ?_⟩
  · exact eq_of_cycleSection_eq hr.cycles hother.cycles (Prod.mk.inj hcycles).2
  · exact eq_of_map_eq (fun a ha b hb => eq_of_deadExportLine_eq (hr.deadExports a ha)
      (hother.deadExports b hb)) hexports
  · exact (List.map_inj_right fun _ _ => (String.append_right_inj _).mp).mp hmodules
  · exact eq_of_map_eq (fun v hv w hw => eq_of_warningLine_eq (hr.warnings v hv)
      (hother.warnings w hw)) (Markdown.shown_inj h)

/-- The text of a report in Markdown has a table of numbers and a section on each of the lists that
has elements, and one on cycles in any case. In the section on a list each element has one line, in
the order of the list. So reports with different lists have different texts. -/
theorem markdownText_keepsLists (h : r.EveryText IsUnmarked) :
    (∃ table, table.length = 13 ∧
      sections (Text.lines r.markdownText) = documentSections r table) ∧
    ∀ other : Report, other.EveryText IsUnmarked →
      other.metrics.cycles ≠ r.metrics.cycles ∨ other.metrics.deadExports ≠ r.metrics.deadExports ∨
        other.metrics.unreachable ≠ r.metrics.unreachable ∨
        other.metrics.warnings ≠ r.metrics.warnings →
      other.markdownText ≠ r.markdownText := by
  have hsections : ∀ {report : Report}, report.EveryText IsUnmarked → ∃ table, table.length = 13 ∧
      sections (Text.lines report.markdownText) = documentSections report table := by
    intro report hreport
    rw [lines_markdownText (hreport.imp fun _ hunmarked => hunmarked.line_feed)]
    exact sections_markdownLines report
  refine ⟨hsections h, fun other hother hdiffer htext => ?_⟩
  obtain ⟨table, -, hread⟩ := hsections h
  obtain ⟨table', -, hread'⟩ := hsections hother
  have hlists : listSections other.metrics = listSections r.metrics := by
    rw [htext, hread] at hread'
    simp only [documentSections, List.cons_append, List.nil_append, List.cons.injEq,
      List.append_cancel_right_eq] at hread'
    exact hread'.2.2.symm
  obtain ⟨hcycles, hexports, hmodules, hwarnings⟩ := eq_of_listSections_eq hother h hlists
  rcases hdiffer with hne | hne | hne | hne
  · exact hne hcycles
  · exact hne hexports
  · exact hne hmodules
  · exact hne hwarnings

/-- A report whose texts have pieces of marks in them. -/
def looseReport : Report where
  project := "demo"
  filesScanned := 4
  metrics := {
    depth := ⟨.ofBits 0, 0⟩
    fanout := { average := .ofBits 0, max := 1, maxModule := some "a -" }
    cycles := [⟨["a -", "> b"]⟩, ⟨["c"]⟩]
    complexity := { average := .ofBits 0 }
    coupling := { averageEfferent := .ofBits 0 }
    deadExports := [{ module := "## a", name := "- b", kind := .constant, line := 3 }]
    warnings := [⟨"---", "Syntax error in --- at line 1"⟩] }

/-- The same report with its cycles in the other order. -/
def reorderedReport : Report :=
  { looseReport with metrics := { looseReport.metrics with cycles := [⟨["c"]⟩, ⟨["a -", "> b"]⟩] } }

theorem markdownText_keepsLists_looseReport :
    looseReport.EveryText IsUnmarked ∧ reorderedReport.EveryText IsUnmarked ∧
    reorderedReport.metrics.cycles ≠ looseReport.metrics.cycles ∧
    (∃ table, table.length = 13 ∧ sections (Text.lines looseReport.markdownText) =
      [("# Architecture Report", ["**Project:** demo"]), ("## Summary", table),
        ("## Circular Dependencies", ["The following circular dependencies were detected:",
          "1. \x60a - -> > b -> a -\x60", "2. \x60c -> c\x60"]),
        ("## Dead Exports (1)", ["| Module | Symbol | Kind | Line |",
          "|--------|--------|------|------|", "| ## a | \x60- b\x60 | constant | 3 |"]),
        ("## Warnings", ["- \x60---\x60: Syntax error in --- at line 1"]),
        ("---", ["*Generated by archnav*"])]) ∧
    reorderedReport.markdownText ≠ looseReport.markdownText := by
  have hmarks : looseReport.EveryText IsUnmarked := by
    constructor <;> decide
  have hmarks' : reorderedReport.EveryText IsUnmarked := by
    constructor <;> decide
  have hlists : listSections looseReport.metrics =
      [("## Circular Dependencies", ["The following circular dependencies were detected:",
          "1. \x60a - -> > b -> a -\x60", "2. \x60c -> c\x60"]),
        ("## Dead Exports (1)", ["| Module | Symbol | Kind | Line |",
          "|--------|--------|------|------|", "| ## a | \x60- b\x60 | constant | 3 |"]),
        ("## Warnings", ["- \x60---\x60: Syntax error in --- at line 1"])] := by
    decide
  have hdiffer : reorderedReport.metrics.cycles ≠ looseReport.metrics.cycles := by decide
  obtain ⟨⟨table, hlength, hsections⟩, htexts⟩ := markdownText_keepsLists hmarks
  rw [documentSections, hlists] at hsections
  refine ⟨hmarks, hmarks', hdiffer, ⟨table, hlength, hsections⟩, ?_⟩
  exact htexts reorderedReport hmarks' (.inl hdiffer)

end ModuleAtlas.Report
