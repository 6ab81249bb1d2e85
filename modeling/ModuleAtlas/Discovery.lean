import ModuleAtlas.FileTree
import ModuleAtlas.Manifest
import ModuleAtlas.Settings
import ModuleAtlas.Source
import ModuleAtlas.Text.Utf8

/-!
# Discovery

The source files and the project manifests in a directory tree. Hidden directories and those named in
the settings are not entered; the scan root always is. Files are classified by their paths, and Go
files by a mark of generated code as well.
-/

namespace ModuleAtlas

/-! ## Classes of files -/

/-- A Go file with the line `// Code generated … DO NOT EDIT` above the first line that starts like a
package clause. -/
def isGeneratedGo (content : ByteArray) : Bool :=
  let lines := (Text.lines (Text.ofBytes content)).map Text.trim
  let header := lines.takeWhile fun line => !Text.startsWith "package " line
  header.any fun line =>
    Text.startsWith "// Code generated" line && Text.contains "DO NOT EDIT" line

/-- A Go file that the language's tools pass over. -/
def isHiddenGo (name : String) : Bool := Text.startsWith "_" name || Text.startsWith "." name

/-- A test by the name of a Python file. -/
def isPythonTest (name : String) : Bool :=
  (Text.startsWith "test_" name && Text.endsWith ".py" name) || Text.endsWith "_test.py" name ||
    name == "conftest.py"

/-- A test by the path of a TypeScript or JavaScript file. -/
def isModuleTest (directories : List String) (name : String) : Bool :=
  Text.contains ".test." name || Text.contains ".spec." name || directories.contains "__tests__"

/-- How the analysis treats a file. -/
def classify (path : String) (language : Language) (content : ByteArray) : FileClass :=
  let name := Path.fileName path
  if (Path.directories path).contains "vendor" then .excluded
  else
    match language with
    | .go =>
      if isHiddenGo name then .excluded
      else if Text.endsWith "_test.go" name then .test
      else if isGeneratedGo content then .generated
      else .source
    | .python => if isPythonTest name then .test else .source
    | .typeScript | .javaScript =>
      if isModuleTest (Path.directories path) name then .test else .source

/-! ## Files of a tree -/

/-- Is a directory of that name below the scan root entered? -/
def ScanSettings.enters (settings : ScanSettings) (name : String) : Bool :=
  !Text.startsWith "." name && !settings.skipDirs.contains name

namespace FileTree

mutual

/-- The files in a tree with their paths; the tree itself is at `path`. -/
def filesFrom (enters : String → Bool) (path : String) : FileTree → List (String × ByteArray)
  | .file content => [(path, content)]
  | .directory entries => filesOfEntries enters path entries

/-- The files in the entries of a directory. -/
def filesOfEntries (enters : String → Bool) (path : String) :
    List (String × FileTree) → List (String × ByteArray)
  | [] => []
  | (name, .file content) :: rest =>
    (Path.child path name, content) :: filesOfEntries enters path rest
  | (name, .directory entries) :: rest =>
    (if enters name then filesFrom enters (Path.child path name) (.directory entries) else []) ++
      filesOfEntries enters path rest

end

end FileTree

/-! ## Results -/

/-- What was found in a tree. -/
structure Discovery where
  /-- the files in a known language, in ascending order of their paths -/
  files : List SourceFile
  /-- the manifests, in ascending order of their roots; the scan root has one -/
  manifests : List Manifest

/-- The number of files of a class. -/
def Discovery.count (d : Discovery) (c : FileClass) : Nat :=
  (d.files.filter (·.fileClass = c)).length

/-- The extension of a file name. A point at the start of a name begins no extension. -/
def Path.extension? (path : String) : Option String :=
  let parts := Text.split '.' (Path.fileName path)
  if Text.join "." parts.dropLast = "" then none else parts.getLast?

/-- The manifest file at a path. -/
def ManifestFile.ofPath? (path : String) : Option ManifestFile := ofName? (Path.fileName path)

/-- The language of a file that is no manifest. -/
def sourceLanguage? (path : String) : Option Language :=
  if (ManifestFile.ofPath? path).isSome then none
  else (Path.extension? path).bind Language.ofExtension?

/-- The entries that matter to a scan. -/
def ScanSettings.selection (settings : ScanSettings) : Selection where
  enters := settings.enters
  wants name := (ManifestFile.ofPath? name).isSome || (sourceLanguage? name).isSome

/-- The source file with a path and content. The content of a large file is not looked at. -/
def sourceFile? (settings : ScanSettings) (path : String) (content : ByteArray) :
    Option SourceFile :=
  (sourceLanguage? path).map fun language =>
    if settings.maxFileBytes < content.size then ⟨path, language, ByteArray.empty, .excluded⟩
    else ⟨path, language, content, classify path language content⟩

/-- Takes up what a manifest file declares, if it can be read. -/
def Manifest.applyFile (manifest : Manifest) (path : String) (content : ByteArray) : Manifest :=
  match ManifestFile.ofPath? path, String.fromUTF8? content with
  | some file, some text =>
    match manifest.apply file text with
    | .ok changed => changed
    | .error _ => manifest
  | _, _ => manifest

/-- The manifest of a project root, given the files of the scan. -/
def manifestAt (files : List (String × ByteArray)) (root : String) : Manifest :=
  (files.filter fun file => Path.parent file.1 = root).foldl
    (fun manifest (path, content) => manifest.applyFile path content) { root := root }

/-- The directories of the manifest files, and the scan root, in ascending order. -/
def projectRoots (files : List (String × ByteArray)) : List String :=
  Text.sortedUnique <|
    "" :: (files.filter fun file => (ManifestFile.ofPath? file.1).isSome).map fun file =>
      Path.parent file.1

/-- What there is in a tree. -/
def discover (tree : FileTree) (settings : ScanSettings) : Discovery :=
  let files := tree.filesFrom settings.enters ""
  { files := (files.filterMap fun (path, content) => sourceFile? settings path content).mergeSort
      fun a b => Text.atMost a.path b.path
    manifests := (projectRoots files).map (manifestAt files) }

end ModuleAtlas
