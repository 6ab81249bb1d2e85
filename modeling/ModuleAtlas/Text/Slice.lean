/-!
# Slices of a text

Places in a text are counted in bytes of its UTF-8 encoding. A slice is what stands between two places,
both of which have to lie between characters.
-/

namespace ModuleAtlas.Text

/-- The number of bytes that characters take. -/
def byteCount : List Char → Nat
  | [] => 0
  | c :: rest => c.utf8Size + byteCount rest

/-- The characters after the first `bytes` bytes, if a character ends there. -/
def dropBytes? : Nat → List Char → Option (List Char)
  | 0, chars => some chars
  | _ + 1, [] => none
  | bytes + 1, c :: rest =>
    if c.utf8Size ≤ bytes + 1 then dropBytes? (bytes + 1 - c.utf8Size) rest else none

/-- The characters in the first `bytes` bytes, if a character ends there. -/
def takeBytes? : Nat → List Char → Option (List Char)
  | 0, _ => some []
  | _ + 1, [] => none
  | bytes + 1, c :: rest =>
    if c.utf8Size ≤ bytes + 1 then (takeBytes? (bytes + 1 - c.utf8Size) rest).map (c :: ·) else none

/-- The text from one place to another, if there is such a text. -/
def slice? (text : String) (start stop : Nat) : Option String :=
  if start ≤ stop then
    (dropBytes? start text.toList).bind fun rest =>
      (takeBytes? (stop - start) rest).map String.ofList
  else none

end ModuleAtlas.Text
