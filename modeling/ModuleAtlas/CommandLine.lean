import ModuleAtlas.Analysis
import ModuleAtlas.CommandLine.Arguments
import ModuleAtlas.Grammar
import ModuleAtlas.Report
import ModuleAtlas.Scan

/-!
# The command line

What the program writes and how it exits, given its arguments and a place with files. A successful
run writes its result and exits with zero; wrong arguments exit with two and other failures with one,
and both write nothing.
-/

namespace ModuleAtlas

/-- How a run ends. -/
structure Outcome where
  exitCode : Nat := 0
  output : String := ""
  deriving DecidableEq, Repr

namespace CommandLine

/-- The version of the program. -/
def version : String := "0.1.0"

/-- What is written if nothing is asked for. -/
def greetingText : String :=
  "archnav - module architecture analyzer\n" ++
    "Run 'archnav analyze <path>' to analyze a project\n" ++
    "Run 'archnav --help' for more information\n"

/-- What is written if help is asked for. -/
def helpText : String :=
  "Module dependency graph and architecture metrics for Go, Python and TypeScript projects\n\n" ++
    "Usage: archnav [COMMAND]\n\n" ++
    "Commands:\n" ++
    "  analyze [PATH]  Analyze the module architecture of a project\n" ++
    "  version         Show version information\n" ++
    "  help            Print this message\n\n" ++
    "Options of analyze:\n" ++
    "  -f, --format <FORMAT>    Output format: json or markdown [default: json]\n" ++
    "  -c, --config <CONFIG>    Config file (defaults to archnav.toml in the scanned directory)\n" ++
    "  -w, --workers <WORKERS>  Worker threads for parsing (0 = one per core)\n" ++
    "  -e, --entry <ENTRIES>    Additional entry module, relative to the scanned directory\n"

/-- The analysis settings of a request: its options count before those of the configuration, and its
entry points come after them. -/
def AnalyzeRequest.settings (request : AnalyzeRequest) (config : AnalysisSettings) :
    AnalysisSettings :=
  { config with
    workers := request.workers.getD config.workers
    entryPoints := config.entryPoints ++ request.entries }

/-- The report on what was found. -/
def AnalyzeRequest.report (request : AnalyzeRequest) (name : String) (found : Discovery)
    (config : AnalysisSettings) : String :=
  let report : Report :=
    { project := name
      filesScanned := found.files.length
      metrics := analyzeWorkspace found.files found.manifests (request.settings config) }
  report.text (request.format.getD .default)

variable {m : Type → Type} [Monad m]

/-- Scans a path and reports on it. -/
def analyze (fs : FileSystem m) (request : AnalyzeRequest) : m Outcome := do
  let path := request.path.getD "."
  let settings ← match request.config with
    | some file => Scan.loadSettings fs file
    | none => Scan.discoverSettings fs path
  match settings with
  | .error _ => return { exitCode := 1 }
  | .ok settings =>
    match ← Scan.discoverAt fs path settings.scan with
    | .error _ => return { exitCode := 1 }
    | .ok found =>
      let name := (← fs.lastName path).getD path
      return { output := request.report name found settings.analysis }

/-- Runs the program. -/
def run (fs : FileSystem m) (arguments : List String) : m Outcome :=
  match request arguments with
  | .greeting => return { output := greetingText }
  | .help => return { output := helpText }
  | .versionFlag => return { output := "archnav " ++ version ++ "\n" }
  | .version => return { output := "archnav v" ++ version ++ "\n" }
  | .analyze request => analyze fs request
  | .misuse => return { exitCode := 2 }

end CommandLine

end ModuleAtlas
