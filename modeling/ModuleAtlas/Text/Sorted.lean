/-!
# Sorted lists without repetition

A set of texts is kept as the ascending list of its members. The order is that of code points, which
is also the order of the encoded bytes.
-/

namespace ModuleAtlas.Text

/-- Drops every member with the same key as the last one that was kept. -/
def dropRepeatsAfter {α : Type} (key : α → String) (kept : String) : List α → List α
  | [] => []
  | a :: rest =>
    if key a = kept then dropRepeatsAfter key kept rest
    else a :: dropRepeatsAfter key (key a) rest

/-- Of neighbours with the same key keeps the first. -/
def dropRepeatsBy {α : Type} (key : α → String) : List α → List α
  | [] => []
  | a :: rest => a :: dropRepeatsAfter key (key a) rest

/-- The order of texts by code points. -/
def atMost (a b : String) : Bool := !decide (b < a)

/-- The members of a list in ascending order, each once. -/
def sortedUnique (texts : List String) : List String :=
  dropRepeatsBy id (texts.mergeSort atMost)

end ModuleAtlas.Text
