import ModuleAtlas.Json.Reader
import ModuleAtlas.Text.Blank
import ModuleAtlas.Text.LowerCase
import ModuleAtlas.Toml.Reader

/-!
# Project manifests

A directory with a manifest file is the root of a project. Three kinds of manifest declare a name
under which the project's modules can be imported; the others only mark the root. Each kind declares
its own part of a `Manifest`, and a manifest that cannot be read changes nothing.
-/

namespace ModuleAtlas

/-- The names a project is imported by. -/
structure Manifest where
  /-- the directory of the project; the scan root is empty -/
  root : String := ""
  /-- the module path of a Go project -/
  goModule : Option String := none
  /-- the name of a JavaScript package -/
  packageName : Option String := none
  /-- the name of a Python package -/
  pythonPackage : Option String := none
  deriving DecidableEq, Repr

/-- The files that mark the root of a project. -/
inductive ManifestFile where
  | goMod
  | packageJson
  | pyproject
  | setupPy
  | setupCfg
  deriving DecidableEq, Repr

/-- Why a manifest file declares nothing. -/
inductive ManifestError where
  | badPackageJson
  | badPyproject
  deriving DecidableEq, Repr

namespace ManifestFile

/-- The name of a manifest file. -/
def name : ManifestFile → String
  | .goMod => "go.mod"
  | .packageJson => "package.json"
  | .pyproject => "pyproject.toml"
  | .setupPy => "setup.py"
  | .setupCfg => "setup.cfg"

/-- All manifest files. -/
def every : List ManifestFile := [.goMod, .packageJson, .pyproject, .setupPy, .setupCfg]

/-- The manifest file of a name. -/
def ofName? (name : String) : Option ManifestFile := every.find? fun file => file.name = name

end ManifestFile

namespace Manifest

/-- A declared name; an empty one declares nothing. -/
def declared (name : Option String) : Option String := name.filter (· ≠ "")

/-! ## Module lines -/

/-- The path in a line `module path`, without the quotes around it. -/
def modulePath? (line : String) : Option String :=
  match Text.stripFront? "module" (Text.trim line) with
  | none => none
  | some rest =>
    if (rest.toList.head?.map Text.isBlank).getD false then
      declared (some (Text.trimWhile (· == '"') (Text.trim rest)))
    else none

/-- The path in the first module line. -/
def goModule? (text : String) : Option String := (Text.lines text).findSome? modulePath?

/-! ## Package names -/

/-- A string or null. -/
def nameOf? : Json.Value → Option (Option String)
  | .null => some none
  | .string (some name) => some (some name)
  | _ => none

/-- The name in a package description: an object in which it stands at most once, or an array of the
name alone. The outer option is `none` where the description is malformed. -/
def packageName? (text : String) : Option (Option String) :=
  match Json.parse text with
  | some (.object fields) =>
    if fields.any fun (key, _) => key.isNone then none
    else
      match fields.filter fun (key, _) => key == some "name" with
      | [] => some none
      | [(_, value)] => (nameOf? value).map declared
      | _ => none
  | some (.array [value]) => (nameOf? value).map declared
  | _ => none

/-! ## Project names -/

/-- The name in a record whose only field is the name. -/
def nameField? (value : Toml.Value) : Option (Option String) := do
  match ← value.allFields? ["name"] with
  | [name] => Toml.fieldOr none (fun value => value.text?.map some) name
  | _ => none

/-- The name in a record whose only field is a record with the name. -/
def toolName? (value : Toml.Value) : Option (Option String) := do
  match ← value.allFields? ["poetry"] with
  | [poetry] => Toml.fieldOr none nameField? poetry
  | _ => none

/-- The project name of a description, or else the name its tool gives. -/
def projectName? (text : String) : Option (Option String) := do
  match ← (← Toml.parse text).allFields? ["project", "tool"] with
  | [project, tool] =>
    let own ← Toml.fieldOr none nameField? project
    let other ← Toml.fieldOr none toolName? tool
    return own.or other
  | _ => none

/-- The package that a project name installs: in lower case, and with `_` for `-`. -/
def packageOfProject (name : String) : String :=
  Text.toLowerCase (String.ofList (name.toList.map fun c => if c = '-' then '_' else c))

/-! ## Steps -/

/-- Takes up what a manifest file declares. -/
def apply (manifest : Manifest) (file : ManifestFile) (text : String) :
    Except ManifestError Manifest :=
  match file with
  | .goMod => .ok { manifest with goModule := goModule? text }
  | .packageJson =>
    match packageName? text with
    | some name => .ok { manifest with packageName := name }
    | none => .error .badPackageJson
  | .pyproject =>
    match projectName? text with
    | some name => .ok { manifest with pythonPackage := (declared name).map packageOfProject }
    | none => .error .badPyproject
  | .setupPy => .ok manifest
  | .setupCfg => .ok manifest

end Manifest

end ModuleAtlas
