/-!
# TOML values

The values of a TOML document and how they are read as typed data. A record of named fields may be
written as a table, whose other keys do not matter, or as an array of the fields in order. A date or
time counts as a record in which no field is set.
-/

namespace ModuleAtlas.Toml

/-- A value of a document. -/
inductive Value where
  | text (content : String)
  | integer (value : Int)
  | float (literal : String)
  | boolean (value : Bool)
  | moment (literal : String)
  | array (items : List Value)
  | table (entries : List (String × Value))
  deriving Repr, Inhabited

namespace Value

/-- The text of a string. -/
def text? : Value → Option String
  | .text content => some content
  | _ => none

/-- The value of an integer that is not negative. -/
def natural? : Value → Option Nat
  | .integer value => if 0 ≤ value then some value.toNat else none
  | _ => none

/-- The value of a boolean. -/
def boolean? : Value → Option Bool
  | .boolean value => some value
  | _ => none

/-- The texts of an array of strings. -/
def texts? : Value → Option (List String)
  | .array items => items.mapM text?
  | _ => none

/-- The fields of a record in the order of `names`; fields that are not set are `none`. -/
def fields? (names : List String) : Value → Option (List (Option Value))
  | .table entries => some (names.map fun name => entries.lookup name)
  | .array items =>
    some (names.zipIdx.map fun (_, position) => items[position]?)
  | .moment _ => some (names.map fun _ => none)
  | _ => none

/-- The fields of a record of which an array has to give all. -/
def allFields? (names : List String) (value : Value) : Option (List (Option Value)) :=
  match value with
  | .array items => if items.length < names.length then none else value.fields? names
  | _ => value.fields? names

end Value

/-- A field that keeps its default unless it is set. -/
def fieldOr {α : Type} (default : α) (decode : Value → Option α) : Option Value → Option α
  | none => some default
  | some value => decode value

end ModuleAtlas.Toml
