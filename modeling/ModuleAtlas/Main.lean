import ModuleAtlas.CommandLine

/-!
# The program on a disk

The outer layer: it reads files and directories, runs the command line, and writes the result.
Symbolic links are passed over, and so is whatever cannot be read.
-/

namespace ModuleAtlas.Disk

/-- The content of a file, if it can be read. -/
def read (path : String) : IO (Option ByteArray) :=
  try return some (← IO.FS.readBinFile path) catch _ => return none

/-- The entry at a path below a directory that is entered. -/
partial def entry? (selection : Selection) (name path : String) : IO (Option FileTree) := do
  try
    let here ← IO.FS.realPath path
    let info ← here.metadata
    match info.type with
    | .file =>
      if selection.wants name then return (← read path).map FileTree.file else return none
    | .dir =>
      let mut entries := []
      for child in ← here.readDir do
        if selection.enters child.fileName || selection.wants child.fileName then
          let isLink := (← child.path.symlinkMetadata).type matches .symlink
          unless isLink do
            if let some tree ← entry? selection child.fileName (path ++ "/" ++ child.fileName) then
              entries := (child.fileName, tree) :: entries
      return some (.directory entries)
    | _ => return none
  catch _ => return none

/-- The file or directory at a path that is to be scanned. -/
def tree (path : String) (selection : Selection) : IO (Option FileTree) :=
  entry? { selection with wants := fun name => name = path || selection.wants name } path path

/-- The last segment of the absolute path. -/
def lastName (path : String) : IO (Option String) :=
  try return (← IO.FS.realPath path).fileName catch _ => return none

/-- The disk, seen from the current directory. -/
def fileSystem : FileSystem IO := ⟨read, tree, lastName⟩

end ModuleAtlas.Disk

/-- Runs the program on the disk. -/
def main (arguments : List String) : IO UInt32 := do
  let outcome ← ModuleAtlas.CommandLine.run ModuleAtlas.Disk.fileSystem arguments
  IO.print outcome.output
  return UInt32.ofNat outcome.exitCode
