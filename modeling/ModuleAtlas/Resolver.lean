import Std.Data.TreeSet.Lemmas
import ModuleAtlas.Extraction
import ModuleAtlas.Language
import ModuleAtlas.Manifest
import ModuleAtlas.Path

/-!
# Resolving imports

What an import refers to is decided in two steps. `reference` reads the import alone: it gives the
files that the import could mean, in order of preference, or the directory of the package it names.
`Resolver.resolve` then looks for them among the files of the project. An import that finds nothing
is external.
-/

namespace ModuleAtlas

/-- What an import refers to, whatever files there are. -/
inductive Reference where
  /-- the first of these files that exists, after some steps up -/
  | file (candidates : List String) (hops : Nat)
  /-- the files of a directory as one package -/
  | package (directory : String) (hops : Nat)
  | outside
  deriving DecidableEq, Repr

/-- Where an import leads. -/
inductive Resolution where
  /-- to a module of the project, after some steps up -/
  | internal (module : String) (hops : Nat)
  | external
  deriving DecidableEq, Repr

namespace Resolution

/-- The module that an import leads to. -/
def target? : Resolution → Option String
  | .internal module _ => some module
  | .external => none

/-- The steps up to the module; none for an external import. -/
def hops : Resolution → Nat
  | .internal _ hops => hops
  | .external => 0

end Resolution

namespace Reference

/-- The part of a dotted or slashed name below a declared name. -/
def below? (separator : Char) (declared name : String) : Option String :=
  match Text.stripFront? declared name with
  | none => none
  | some rest => if rest = "" then some "" else Text.stripFront? (String.singleton separator) rest

/-! ## Files of ECMAScript modules -/

/-- The extensions that an import may leave out, in order of preference. -/
def moduleExtensions : List String :=
  [".ts", ".tsx", ".d.ts", ".js", ".jsx", ".mjs", ".cjs", ".mts", ".cts"]

/-- The extensions of compiled files, each with those of its sources. -/
def compiledExtensions : List (String × List String) :=
  [(".js", [".ts", ".tsx"]), (".jsx", [".tsx"]), (".mjs", [".mts"]), (".cjs", [".cts"])]

/-- The files that a module path may mean: the path itself, the path with an extension, the source of
a compiled file, and the index of a directory. -/
def moduleFiles (base : String) : List String :=
  let exact := if base = "" then [] else [base]
  let extended := moduleExtensions.map (base ++ ·)
  let sources := compiledExtensions.flatMap fun (compiled, extensions) =>
    match Text.stripBack? compiled base with
    | some stem => extensions.map (stem ++ ·)
    | none => []
  let index := if base = "" then "index" else base ++ "/index"
  exact ++ extended ++ sources ++ moduleExtensions.map (index ++ ·)

/-- The reference of an ECMAScript import. -/
def ofModulePath (manifest : Manifest) (importer : String) (i : Import) : Reference :=
  if i.isRelative then
    match Path.resolve? (Path.parent importer) i.source with
    | some there => .file (moduleFiles there.path) there.hops
    | none => .outside
  else
    match manifest.packageName.bind fun name => below? '/' name i.source with
    | some rest => .file (moduleFiles rest) 0
    | none => .outside

/-! ## Files of Python modules -/

/-- The files of a Python package. -/
def packageFiles (base : String) : List String := [Path.child base "__init__.py"]

/-- The files of a Python module, which may be a package. -/
def pythonFiles (base : String) : List String :=
  (if base = "" then [] else [base ++ ".py", base ++ ".pyi"]) ++ packageFiles base

/-- The files of the modules that imported names may be in a package. -/
def submoduleFiles (base : String) (names : List String) : List String :=
  names.flatMap fun name => pythonFiles (Path.child base name)

/-- The files that a dotted name below a directory may mean: the module of that name, or else the
imported names as its submodules. Without a dotted name the submodules come first. -/
def filesBelow (directory dotted : String) (names : List String) : List String :=
  let base := Path.child directory (Path.ofDotted dotted)
  if dotted = "" then submoduleFiles base names ++ packageFiles base
  else pythonFiles base ++ submoduleFiles base names

/-- The reference of a Python import. One leading point is the importer's own directory, and each
further one is a step up. An absolute import starts from the root, from `src`, or below the declared
package. -/
def ofDottedName (manifest : Manifest) (importer : String) (i : Import) : Reference :=
  if i.isRelative then
    let hops := (i.source.toList.takeWhile (· == '.')).length - 1
    let rest := String.ofList (i.source.toList.dropWhile (· == '.'))
    match Path.climb? (Path.parent importer) hops with
    | some directory => .file (filesBelow directory rest i.names) hops
    | none => .outside
  else
    let own := manifest.pythonPackage.bind fun name => below? '.' name i.source
    .file (filesBelow "" i.source i.names ++ filesBelow "src" i.source i.names ++
      (own.map fun rest => filesBelow "" rest i.names).getD []) 0

/-! ## Directories of Go packages -/

/-- The reference of a Go import: a directory relative to the importer or below the module path. -/
def ofPackagePath (manifest : Manifest) (importer : String) (i : Import) : Reference :=
  if i.isRelative then
    match Path.resolve? (Path.parent importer) i.source with
    | some there => .package there.path there.hops
    | none => .outside
  else
    match manifest.goModule.bind fun path => below? '/' path i.source with
    | some directory => .package directory 0
    | none => .outside

end Reference

/-- What an import in a file refers to. -/
def reference (manifest : Manifest) (i : Import) (importer : String) (language : Language) :
    Reference :=
  match language with
  | .typeScript | .javaScript => .ofModulePath manifest importer i
  | .python => .ofDottedName manifest importer i
  | .go => .ofPackagePath manifest importer i

/-- The files of a project and the names it declares. -/
structure Resolver where
  /-- the files, for look-ups -/
  files : Std.TreeSet String
  /-- the Go files in ascending order, each with its directory -/
  goFiles : List (String × String)
  manifest : Manifest

namespace Resolver

/-- The resolver of a set of files. -/
def ofFiles (paths : List String) (manifest : Manifest) : Resolver :=
  let files := Std.TreeSet.ofList paths
  { files := files
    goFiles := (files.toList.filter (Text.endsWith ".go" ·)).map fun path => (Path.parent path, path)
    manifest := manifest }

/-- Is there such a file in the project? -/
def contains (r : Resolver) (path : String) : Bool := r.files.contains path

/-- The Go files of a directory in ascending order. -/
def goFilesIn (r : Resolver) (directory : String) : List String :=
  (r.goFiles.filter (·.1 = directory)).map (·.2)

/-- The Go files of the package to which a file belongs. -/
def goPackageMembers (r : Resolver) (module : String) : List String :=
  r.goFilesIn (Path.parent module)

/-- The file that stands for a package: the one named like its directory, or else the first. -/
def representative? (r : Resolver) (directory : String) : Option String :=
  let members := r.goFilesIn directory
  (members.find? fun file => Path.stem file = Path.fileName directory).or members.head?

/-- Where a reference leads among the files of the project. -/
def locate (r : Resolver) : Reference → Resolution
  | .file candidates hops =>
    match candidates.find? r.contains with
    | some module => .internal module hops
    | none => .external
  | .package directory hops =>
    match r.representative? directory with
    | some module => .internal module hops
    | none => .external
  | .outside => .external

/-- Where an import in a file leads. -/
def resolve (r : Resolver) (i : Import) (importer : String) (language : Language) : Resolution :=
  r.locate (reference r.manifest i importer language)

end Resolver

end ModuleAtlas
