import ModuleAtlas.Text.Split

/-!
# Blank space and lines

`isBlank` is the White_Space property of the character database, which is wider than the ASCII
blanks. A text is trimmed of it at both ends, and is cut into lines at line feeds.
-/

namespace ModuleAtlas.Text

/-- A character with the White_Space property. -/
def isBlank (c : Char) : Bool :=
  let code := c.toNat
  (9 ≤ code && code ≤ 13) || code == 0x20 || code == 0x85 || code == 0xA0 || code == 0x1680 ||
    (0x2000 ≤ code && code ≤ 0x200A) || code == 0x2028 || code == 0x2029 || code == 0x202F ||
    code == 0x205F || code == 0x3000

/-- Drops characters that satisfy `p` from the end of a list. -/
def dropBackWhile (p : Char → Bool) (chars : List Char) : List Char :=
  (chars.reverse.dropWhile p).reverse

/-- Drops characters that satisfy `p` from both ends of a text. -/
def trimWhile (p : Char → Bool) (text : String) : String :=
  String.ofList (dropBackWhile p (text.toList.dropWhile p))

/-- A text without the blank space at its ends. -/
def trim (text : String) : String := trimWhile isBlank text

/-- The lines of a text. A final line feed ends the last line and starts no other. -/
def lines (text : String) : List String :=
  let pieces := split '\n' text
  if pieces.getLast? = some "" then pieces.dropLast else pieces

end ModuleAtlas.Text
