/-!
# Splitting and joining

Texts are split at a separator character and joined again with one. Both directions work on lists
of characters, so that laws about them are inductions on lists.
-/

namespace ModuleAtlas.Text

/-- Puts one character in front of the pieces of the characters after it. -/
def splitStep (sep : Char) (c : Char) (pieces : List (List Char)) : List (List Char) :=
  if c == sep then [] :: pieces
  else match pieces with
    | [] => [[c]]
    | first :: more => (c :: first) :: more

/-- The pieces between the separators; there is always at least one. -/
def splitChars (sep : Char) (chars : List Char) : List (List Char) :=
  chars.foldr (splitStep sep) [[]]

/-- The pieces of a text between the occurrences of `sep`. -/
def split (sep : Char) (text : String) : List String :=
  (splitChars sep text.toList).map String.ofList

/-- The pieces in order with `sep` between neighbours. -/
def join (sep : String) : List String → String
  | [] => ""
  | [piece] => piece
  | piece :: more => piece ++ sep ++ join sep more

/-- What follows `first` at the start of a list. -/
def dropFront? : List Char → List Char → Option (List Char)
  | [], rest => some rest
  | _ :: _, [] => none
  | a :: first, b :: rest => if a == b then dropFront? first rest else none

/-- What follows `first` at the start of a text. -/
def stripFront? (first text : String) : Option String :=
  (dropFront? first.toList text.toList).map String.ofList

/-- What stands before `last` at the end of a text. -/
def stripBack? (last text : String) : Option String :=
  (dropFront? last.toList.reverse text.toList.reverse).map fun rest => String.ofList rest.reverse

/-- Does a text start with `first`? -/
def startsWith (first text : String) : Bool :=
  (dropFront? first.toList text.toList).isSome

/-- Does a text end with `last`? -/
def endsWith (last text : String) : Bool :=
  (dropFront? last.toList.reverse text.toList.reverse).isSome

/-- Does `part` occur somewhere in a list? -/
def occursIn (part : List Char) : List Char → Bool
  | [] => part.isEmpty
  | c :: rest => (dropFront? part (c :: rest)).isSome || occursIn part rest

/-- Does `part` occur somewhere in a text? -/
def contains (part text : String) : Bool :=
  occursIn part.toList text.toList

end ModuleAtlas.Text
