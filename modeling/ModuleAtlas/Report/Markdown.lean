import ModuleAtlas.Decimal.Fixed
import ModuleAtlas.Report.Format

/-!
# Reports in Markdown

A report as a document with a table of the numbers and a section for each list. The section on cycles
is always there; the others are left out if their lists are empty.
-/

namespace ModuleAtlas.Report

/-- The text of a number with two places. -/
def twoPlaces (x : Float) : String := Decimal.fixed 2 (.ofFloat x)

/-- A name, or a dash where there is none. -/
def orDash (name : Option String) : String := name.getD "-"

/-- A text between backticks. -/
def code (text : String) : String := "\x60" ++ text ++ "\x60"

/-- A row of a table. -/
def row (cells : List String) : String := "| " ++ Text.join " | " cells ++ " |"

/-- The lines before the sections on lists. -/
def headLines (r : Report) : List String :=
  let m := r.metrics
  ["# Architecture Report", "", "**Project:** " ++ r.project, "", "## Summary", "",
    row ["Metric", "Value"], "|--------|-------|",
    row ["Files Scanned", toString r.filesScanned],
    row ["Modules", toString m.moduleCount],
    row ["Internal Edges", toString m.edgeCount],
    row ["External Imports", toString m.externalCount],
    row ["Directory Depth (avg / max)",
      twoPlaces m.depth.average ++ " / " ++ toString m.depth.max],
    row ["Fanout (avg / max)",
      twoPlaces m.fanout.average ++ " / " ++ toString m.fanout.max ++
        " (" ++ orDash m.fanout.maxModule ++ ")"],
    row ["Import Complexity (avg / max)",
      twoPlaces m.complexity.average ++ " / " ++ toString m.complexity.max ++
        " (" ++ orDash m.complexity.maxImport ++ ")"],
    row ["Efferent Coupling (avg)", twoPlaces m.coupling.averageEfferent],
    row ["Afferent Coupling (max)",
      toString m.coupling.maxAfferent ++ " (" ++ orDash m.coupling.maxAfferentModule ++ ")"],
    row ["Circular Dependencies", toString m.cycles.length],
    row ["Dead Exports", toString m.deadExports.length],
    ""]

/-- The line of a cycle with its number in the list. -/
def cycleLine (number : Nat) (c : Cycle) : String := toString number ++ ". " ++ code c.path

/-- The lines of cycles, numbered from `number` on. -/
def cycleLinesFrom (number : Nat) : List Cycle → List String
  | [] => []
  | c :: rest => cycleLine number c :: cycleLinesFrom (number + 1) rest

/-- The section on cycles. -/
def cycleLines (cycles : List Cycle) : List String :=
  ["## Circular Dependencies", ""] ++
    (if cycles.isEmpty then ["No circular dependencies detected."]
      else ["The following circular dependencies were detected:", ""] ++ cycleLinesFrom 1 cycles) ++
    [""]

/-- The row of an unused export. -/
def deadExportLine (e : DeadExport) : String :=
  row [e.module, code e.name, e.kind.name, toString e.line]

/-- The section on unused exports. -/
def deadExportLines (exports : List DeadExport) : List String :=
  if exports.isEmpty then []
  else
    ["## Dead Exports (" ++ toString exports.length ++ ")", "",
      row ["Module", "Symbol", "Kind", "Line"], "|--------|--------|------|------|"] ++
      exports.map deadExportLine ++ [""]

/-- The line of an unreachable module. -/
def unreachableLine (module : String) : String := "- " ++ module

/-- The section on unreachable modules. -/
def unreachableLines (modules : List String) : List String :=
  if modules.isEmpty then []
  else
    ["## Unreachable Modules (" ++ toString modules.length ++ ")", ""] ++
      modules.map unreachableLine ++ [""]

/-- The line of a warning. -/
def warningLine (w : Warning) : String := "- " ++ code w.path ++ ": " ++ w.message

/-- The section on files that could not be read. -/
def warningLines (warnings : List Warning) : List String :=
  if warnings.isEmpty then []
  else ["## Warnings", ""] ++ warnings.map warningLine ++ [""]

/-- The lines of a report. -/
def markdownLines (r : Report) : List String :=
  headLines r ++ cycleLines r.metrics.cycles ++ deadExportLines r.metrics.deadExports ++
    unreachableLines r.metrics.unreachable ++ warningLines r.metrics.warnings ++
    ["---", "*Generated by archnav*"]

/-- The Markdown text of a report. -/
def markdownText (r : Report) : String :=
  String.ofList ((markdownLines r).flatMap fun line => line.toList ++ ['\n'])

end ModuleAtlas.Report
