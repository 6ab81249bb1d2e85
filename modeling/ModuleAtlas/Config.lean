import ModuleAtlas.Settings
import ModuleAtlas.Toml.Reader

/-!
# Configuration files

Settings are written in TOML, with a table for scanning and one for the analysis. Whatever is not
written keeps its default, and unknown keys do not matter.
-/

namespace ModuleAtlas.Config

open Toml (Value fieldOr)

/-- The name of the configuration file at a scan root. -/
def fileName : String := "archnav.toml"

/-- The scan settings that a value writes. -/
def scanSettings? (value : Value) : Option ScanSettings := do
  let default : ScanSettings := {}
  match ← value.fields? ["skip_dirs", "max_file_bytes"] with
  | [skipDirs, maxFileBytes] =>
    return {
      skipDirs := ← fieldOr default.skipDirs Value.texts? skipDirs
      maxFileBytes := ← fieldOr default.maxFileBytes Value.natural? maxFileBytes }
  | _ => none

/-- The analysis settings that a value writes. -/
def analysisSettings? (value : Value) : Option AnalysisSettings := do
  let default : AnalysisSettings := {}
  match ← value.fields? ["entry_points", "workers", "ignore_entry_exports"] with
  | [entryPoints, workers, ignoreEntryExports] =>
    return {
      entryPoints := ← fieldOr default.entryPoints Value.texts? entryPoints
      workers := ← fieldOr default.workers Value.natural? workers
      ignoreEntryExports := ← fieldOr default.ignoreEntryExports Value.boolean? ignoreEntryExports }
  | _ => none

/-- The settings that a document writes. -/
def settings? (value : Value) : Option Settings := do
  match ← value.fields? ["discovery", "analysis"] with
  | [scan, analysis] =>
    return {
      scan := ← fieldOr {} scanSettings? scan
      analysis := ← fieldOr {} analysisSettings? analysis }
  | _ => none

/-- The settings in the text of a configuration file. -/
def parse (text : String) : Option Settings := (Toml.parse text).bind settings?

end ModuleAtlas.Config
