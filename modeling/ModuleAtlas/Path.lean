import ModuleAtlas.Text.Split

/-!
# Paths

A path is a text with `/` between its segments; files are named by their path below a root, and the
root itself is the empty path. A relative path is followed from a directory segment by segment, and
the steps up are counted.
-/

namespace ModuleAtlas.Path

/-- The segments of a path, empty ones included. -/
def segments (path : String) : List String := Text.split '/' path

/-- The segments that name something. -/
def namedSegments (path : String) : List String := (segments path).filter (· ≠ "")

/-- The last segment of a path. -/
def fileName (path : String) : String := (segments path).getLast?.getD ""

/-- The directories on the way to a file. -/
def directories (path : String) : List String := (segments path).dropLast

/-- The directory of a file: all of its path before the last `/`. -/
def parent (path : String) : String := Text.join "/" (directories path)

/-- The number of directories between the root and a file. -/
def depth (path : String) : Nat := (namedSegments path).length - 1

/-- The name of a file before its first point. -/
def stem (path : String) : String := (Text.split '.' (fileName path)).headD ""

/-- The path of an entry in a directory. Either part may be empty. -/
def child (directory name : String) : String :=
  if directory = "" then name else if name = "" then directory else directory ++ "/" ++ name

/-- The path of a file that is given below a root. -/
def under (root path : String) : String := if root = "" then path else root ++ "/" ++ path

/-- The part of a path below a root, if the root contains it. -/
def below? (root path : String) : Option String :=
  if root = "" then some path else Text.stripFront? (root ++ "/") path

/-- A dotted name as a path. -/
def ofDotted (name : String) : String := Text.join "/" (Text.split '.' name)

/-- Where a relative path leads. -/
structure Destination where
  path : String
  /-- the steps up -/
  hops : Nat
  deriving DecidableEq, Repr

/-- Follows the parts of a relative path from a directory, whose segments are given from the inside
out. There is nothing above the root. -/
def follow (inside : List String) (hops : Nat) : List String → Option (List String × Nat)
  | [] => some (inside.reverse, hops)
  | part :: rest =>
    if part = "" ∨ part = "." then follow inside hops rest
    else if part = ".." then
      match inside with
      | [] => none
      | _ :: outside => follow outside (hops + 1) rest
    else follow (part :: inside) hops rest

/-- The destination of a relative path from a directory, if it stays below the root. -/
def resolve? (directory relative : String) : Option Destination :=
  (follow (namedSegments directory).reverse 0 (segments relative)).map fun (inside, hops) =>
    ⟨Text.join "/" inside, hops⟩

/-- The directory a number of steps above a directory. -/
def climb? (directory : String) : Nat → Option String
  | 0 => some directory
  | hops + 1 => if directory = "" then none else climb? (parent directory) hops

end ModuleAtlas.Path
