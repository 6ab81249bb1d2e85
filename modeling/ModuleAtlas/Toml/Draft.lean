import ModuleAtlas.Toml.Value

/-!
# Documents under construction

Keys and headers may name a table in several places. An unfinished table remembers how it came about,
which decides whether it may be extended: a table with a header of its own is defined once, and one
that a dotted key made is open to dotted keys only.
-/

namespace ModuleAtlas.Toml

/-- How a table came about. -/
inductive Origin where
  /-- on the way to a deeper header -/
  | implied
  /-- on the way of a dotted key -/
  | dotted
  /-- by a header of its own -/
  | header
  deriving DecidableEq, Repr

/-- An entry of an unfinished table. -/
inductive Item where
  | value (content : Value)
  | table (origin : Origin) (entries : List (String × Item))
  /-- an array of tables, the last one first -/
  | tables (items : List (List (String × Item)))

/-- The entries of an unfinished table in the order in which they were made. -/
abbrev Entries := List (String × Item)

namespace Item

mutual

/-- A finished entry. -/
def toValue : Item → Value
  | .value content => content
  | .table _ entries => .table (entriesToValues entries)
  | .tables items => .array (tablesToValues items).reverse

/-- The finished entries of a table. -/
def entriesToValues : Entries → List (String × Value)
  | [] => []
  | (key, item) :: rest => (key, toValue item) :: entriesToValues rest

/-- The finished tables of an array. -/
def tablesToValues : List Entries → List Value
  | [] => []
  | entries :: rest => .table (entriesToValues entries) :: tablesToValues rest

end

end Item

namespace Entries

/-- Sets the value of a key that is present. -/
def replace (key : String) (item : Item) (entries : Entries) : Entries :=
  entries.map fun entry => if entry.1 = key then (key, item) else entry

/-- Changes the table at the end of a path, making the missing tables on the way. An array of tables
stands for its last table. Dotted keys do not enter a table that has a header. -/
def descend (byDots : Bool) (change : Origin → Entries → Option Entries) :
    Origin → Entries → List String → Option Entries
  | origin, entries, [] => change origin entries
  | _, entries, key :: path =>
    match entries.lookup key with
    | none =>
      let origin := if byDots then .dotted else .implied
      (descend byDots change origin [] path).map fun inner =>
        entries ++ [(key, .table origin inner)]
    | some (.table origin inner) =>
      if byDots ∧ origin = .header then none
      else (descend byDots change origin inner path).map fun inner =>
        entries.replace key (.table origin inner)
    | some (.tables (last :: before)) =>
      (descend byDots change .header last path).map fun last =>
        entries.replace key (.tables (last :: before))
    | some _ => none

/-- Adds a value under a dotted key. The key is new, and its table was made by dotted keys alone
unless it is the table at hand. -/
def insert (path : List String) (key : String) (value : Value) (entries : Entries) :
    Option Entries :=
  descend true (fun origin table =>
    if decide (origin = .dotted) = path.isEmpty ∨ (table.lookup key).isSome then none
    else some (table ++ [(key, .value value)])) .header entries path

end Entries

/-- A document between two of its lines. -/
structure Draft where
  /-- the tables that are complete -/
  root : Entries := []
  /-- the path of the table at hand; the root table has none -/
  path : List String := []
  /-- the table at hand is one of an array -/
  inArray : Bool := false
  /-- the entries of the table at hand -/
  current : Entries := []

namespace Draft

/-- Puts the table at hand into its place. -/
def settle (draft : Draft) : Option Entries :=
  match draft.path.getLast? with
  | none => some draft.current
  | some key =>
    Entries.descend false (fun _ table =>
      match table.lookup key with
      | none =>
        some (table ++ [(key,
          if draft.inArray then .tables [draft.current] else .table .header draft.current)])
      | some (.tables before) =>
        if draft.inArray then some (Entries.replace key (.tables (draft.current :: before)) table)
        else none
      | some _ => none) .header draft.root draft.path.dropLast

/-- Adds a value under a dotted key to the table at hand. -/
def insert (draft : Draft) (path : List String) (key : String) (value : Value) : Option Draft :=
  (draft.current.insert path key value).map fun entries => { draft with current := entries }

/-- Opens the next table of an array. -/
def openInArray (draft : Draft) (path : List String) : Option Draft := do
  let root ← draft.settle
  let root ← Entries.descend false (fun _ table =>
    match table.lookup (path.getLast?.getD "") with
    | none => some table
    | some (.tables _) => some table
    | some _ => none) .header root path.dropLast
  return { root := root, path := path, inArray := true, current := [] }

/-- The entries with which a table begins: none if it is new, those of deeper headers if it was
implied by them. -/
def opening? (table : Entries) (key : String) : Option Entries :=
  match table.lookup key with
  | none => some []
  | some (.table .implied inner) => some inner
  | some _ => none

/-- The table at the end of a path, where arrays stand for their last table. -/
def tableAt? (entries : Entries) : List String → Option Entries
  | [] => some entries
  | key :: path =>
    match entries.lookup key with
    | some (.table _ inner) => tableAt? inner path
    | some (.tables (last :: _)) => tableAt? last path
    | _ => none

/-- Opens a table with a header of its own. -/
def openTable (draft : Draft) (path : List String) : Option Draft := do
  let key := path.getLast?.getD ""
  let root ← draft.settle
  -- makes the tables on the way, so that the look-up below finds them
  let root ← Entries.descend false (fun _ table => some table) .header root path.dropLast
  let above ← tableAt? root path.dropLast
  let current ← opening? above key
  let root ← Entries.descend false
    (fun _ table => some (table.filter fun entry => entry.1 != key)) .header root path.dropLast
  return { root := root, path := path, inArray := false, current := current }

/-- The finished document. -/
def finish (draft : Draft) : Option Value :=
  draft.settle.map fun root => .table (Item.entriesToValues root)

end Draft

end ModuleAtlas.Toml
