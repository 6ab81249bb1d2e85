import ModuleAtlas.Metrics.Basic
import ModuleAtlas.Text.LowerCase

/-!
# Reports

A report is the metrics of a scan with the name of the scanned directory. It is written in one of two
formats.
-/

namespace ModuleAtlas

/-- What is reported about a scan. -/
structure Report where
  /-- the name of the scanned directory -/
  project : String
  /-- the files found, of any class -/
  filesScanned : Nat
  metrics : Metrics Float

/-- The formats of a report. -/
inductive ReportFormat where
  | json
  | markdown
  deriving DecidableEq, Repr

namespace ReportFormat

/-- The format that is used unless another one is named. -/
def default : ReportFormat := .json

/-- The name of a format. -/
def name : ReportFormat → String
  | .json => "json"
  | .markdown => "markdown"

/-- The format of a name; the case does not matter, and Markdown has a short name. -/
def ofName? (name : String) : Option ReportFormat :=
  match Text.toLowerCase name with
  | "json" => some .json
  | "markdown" => some .markdown
  | "md" => some .markdown
  | _ => none

/-- The complaint about a name of no format. -/
def unknownMessage (name : String) : String :=
  "Unknown export format: '" ++ name ++ "'. Valid formats: json, markdown"

end ReportFormat

end ModuleAtlas
