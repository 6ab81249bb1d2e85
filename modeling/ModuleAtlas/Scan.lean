import ModuleAtlas.Config
import ModuleAtlas.Discovery

/-!
# Scans

The steps from a path to what is found there: the configuration is read, and then the tree is
searched. Each step may fail, and the configuration fails first.
-/

namespace ModuleAtlas

/-- Why a path cannot be scanned. -/
inductive ScanError where
  /-- the configuration file is missing or no text -/
  | unreadableConfig
  | malformedConfig
  | missingRoot
  | rootIsFile
  deriving DecidableEq, Repr

namespace Scan

variable {m : Type → Type} [Monad m]

/-- The settings in the content of a configuration file. -/
def settingsOf (content : ByteArray) : Except ScanError Settings :=
  match String.fromUTF8? content with
  | none => .error .unreadableConfig
  | some text =>
    match Config.parse text with
    | none => .error .malformedConfig
    | some settings => .ok settings

/-- The settings in a file that has to be there. -/
def loadSettings (fs : FileSystem m) (path : String) : m (Except ScanError Settings) := do
  match ← fs.read path with
  | none => return .error .unreadableConfig
  | some content => return settingsOf content

/-- The settings for a scan root: those of its configuration file, or the defaults without one. -/
def discoverSettings (fs : FileSystem m) (root : String) : m (Except ScanError Settings) := do
  match ← fs.read (root ++ "/" ++ Config.fileName) with
  | none => return .ok {}
  | some content => return settingsOf content

/-- What there is below a scan root. -/
def discoverAt (fs : FileSystem m) (root : String) (settings : ScanSettings) :
    m (Except ScanError Discovery) := do
  match ← fs.tree root settings.selection with
  | none => return .error .missingRoot
  | some (.file _) => return .error .rootIsFile
  | some tree => return .ok (discover tree settings)

end Scan

end ModuleAtlas
