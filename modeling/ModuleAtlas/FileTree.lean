import ModuleAtlas.Path

/-!
# File trees

A directory tree in memory, and what the program asks of the place where files are kept. The same
program runs on a tree in memory and on a disk.
-/

namespace ModuleAtlas

/-- A file or a directory with its entries. -/
inductive FileTree where
  | file (content : ByteArray)
  | directory (entries : List (String × FileTree))

/-- A place in a tree: the entry itself, then the directories that contain it, each with its name. -/
abbrev Location := List (String × FileTree)

/-- Which entries of a tree matter, by their names. -/
structure Selection where
  /-- directories that are looked into -/
  enters : String → Bool
  /-- files that are looked at -/
  wants : String → Bool

/-- What the program asks of a place with files. -/
structure FileSystem (m : Type → Type) where
  /-- the content of a file, if there is one at the path -/
  read : String → m (Option ByteArray)
  /-- the file or directory at a path; entries below it that do not matter may be left out -/
  tree : String → Selection → m (Option FileTree)
  /-- the last segment of the absolute path, if it has one -/
  lastName : String → m (Option String)

namespace FileTree

/-- The entry of a name in a directory. -/
def entry? (tree : FileTree) (name : String) : Option FileTree :=
  match tree with
  | .file _ => none
  | .directory entries => entries.lookup name

/-- Sets the entry of a name in a directory. -/
def setEntry (tree : FileTree) (name : String) (entry : FileTree) : FileTree :=
  match tree with
  | .file _ => .directory [(name, entry)]
  | .directory entries =>
    if (entries.lookup name).isSome then
      .directory (entries.map fun old => if old.1 = name then (name, entry) else old)
    else .directory (entries ++ [(name, entry)])

/-- Changes the entry at a path, making the directories on the way. -/
def change (f : FileTree → FileTree) : List String → FileTree → FileTree
  | [], tree => f tree
  | name :: path, tree =>
    tree.setEntry name (change f path ((tree.entry? name).getD (.directory [])))

/-- Follows the parts of a path from a location. Only a directory has a way on. -/
def follow : Location → List String → Option Location
  | here, [] => some here
  | here, part :: rest =>
    match here with
    | (_, .directory entries) :: outside =>
      if part = "" ∨ part = "." then follow here rest
      else if part = ".." then if outside.isEmpty then none else follow outside rest
      else
        match entries.lookup part with
        | some entry => follow ((part, entry) :: here) rest
        | none => none
    | _ => none

/-- The entry at a path. -/
def at? (here : Location) (path : String) : Option FileTree :=
  (follow here (Path.segments path)).bind fun there => there.head?.map (·.2)

/-- A place in a tree as the current directory. The top of the tree has no name. -/
def fileSystem (here : Location) : FileSystem Id where
  read path :=
    match at? here path with
    | some (.file content) => some content
    | _ => none
  tree path _ := at? here path
  lastName path :=
    match follow here (Path.segments path) with
    | some ((name, _) :: _ :: _) => some name
    | _ => none

end FileTree

end ModuleAtlas
