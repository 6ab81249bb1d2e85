import ModuleAtlas.Report.Json
import ModuleAtlas.Report.Markdown

/-!
# Writing reports
-/

namespace ModuleAtlas.Report

/-- The text of a report in a format. -/
def text (r : Report) : ReportFormat → String
  | .json => r.jsonText
  | .markdown => r.markdownText

end ModuleAtlas.Report
