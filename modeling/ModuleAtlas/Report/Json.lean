import ModuleAtlas.Json.Writer
import ModuleAtlas.Report.Format

/-!
# Reports in JSON

All that is reported as one JSON document. The warnings are left out if there are none.
-/

namespace ModuleAtlas.Report

open Json (Value)

/-- A cycle, as the list of its modules and as a text. -/
def cycleValue (c : Cycle) : Value :=
  .record [("modules", .texts c.modules), ("path", .text c.path)]

/-- An unused export. -/
def deadExportValue (e : DeadExport) : Value :=
  .record [("module", .text e.module), ("name", .text e.name), ("kind", .text e.kind.name),
    ("line", .count e.line)]

/-- A warning. -/
def warningValue (w : Warning) : Value :=
  .record [("path", .text w.path), ("message", .text w.message)]

/-- The counts at the head of a report. -/
def summaryValue (r : Report) : Value :=
  .record [("files_scanned", .count r.filesScanned),
    ("module_count", .count r.metrics.moduleCount),
    ("edge_count", .count r.metrics.edgeCount),
    ("external_import_count", .count r.metrics.externalCount),
    ("circular_dependencies", .count r.metrics.cycles.length),
    ("dead_exports", .count r.metrics.deadExports.length)]

/-- The depth of the modules. -/
def depthValue (d : DepthSummary Float) : Value :=
  .record [("average", .float d.average), ("max", .count d.max)]

/-- The fanout of the modules. -/
def fanoutValue (f : FanoutSummary Float) : Value :=
  .record [("average", .float f.average), ("max", .count f.max),
    ("max_module", .textOrNull f.maxModule)]

/-- The steps up in relative imports. -/
def complexityValue (c : ComplexitySummary Float) : Value :=
  .record [("average", .float c.average), ("max", .count c.max),
    ("max_import", .textOrNull c.maxImport), ("max_module", .textOrNull c.maxModule),
    ("relative_imports", .count c.relativeImports)]

/-- The coupling of the modules. -/
def couplingValue (c : CouplingSummary Float) : Value :=
  .record [("average_efferent", .float c.averageEfferent), ("max_afferent", .count c.maxAfferent),
    ("max_afferent_module", .textOrNull c.maxAfferentModule)]

/-- A report as a JSON value. -/
def toJson (r : Report) : Value :=
  let m := r.metrics
  let warnings :=
    if m.warnings.isEmpty then [] else [("warnings", .array (m.warnings.map warningValue))]
  .record <|
    [("project", .text r.project), ("summary", summaryValue r), ("depth", depthValue m.depth),
      ("fanout", fanoutValue m.fanout), ("import_complexity", complexityValue m.complexity),
      ("coupling", couplingValue m.coupling), ("cycles", .array (m.cycles.map cycleValue)),
      ("dead_exports", .array (m.deadExports.map deadExportValue)),
      ("unreachable_modules", .texts m.unreachable)] ++ warnings

/-- The JSON text of a report. -/
def jsonText (r : Report) : String := Json.document r.toJson ++ "\n"

end ModuleAtlas.Report
