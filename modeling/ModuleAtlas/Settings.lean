/-!
# Settings

What can be set for a run: which part of a tree is scanned, and how the modules found are judged.
-/

namespace ModuleAtlas

/-- Which part of a tree is scanned. -/
structure ScanSettings where
  /-- names of directories that are not entered -/
  skipDirs : List String :=
    ["node_modules", ".git", "vendor", "dist", "build", "__pycache__", ".venv", "venv", "target",
      "testdata"]
  /-- the size above which the content of a file is not read -/
  maxFileBytes : Nat := 1024 * 1024
  deriving DecidableEq, Repr

/-- How modules are judged. -/
structure AnalysisSettings where
  /-- modules that are used from outside, relative to the scan root -/
  entryPoints : List String := []
  /-- worker threads, where zero leaves the number open; no result depends on it -/
  workers : Nat := 0
  /-- exports of entry modules are never reported as unused -/
  ignoreEntryExports : Bool := false
  deriving DecidableEq, Repr

/-- All settings of a run. -/
structure Settings where
  scan : ScanSettings := {}
  analysis : AnalysisSettings := {}
  deriving DecidableEq, Repr

end ModuleAtlas
