import ModuleAtlas.Json.Value

/-!
# Writing JSON

A value is laid out with one item or field a line, two spaces deeper than its container. Strings
escape the quote, the backslash and the control characters, and nothing else.
-/

namespace ModuleAtlas.Json

/-- A hexadecimal digit in lower case. -/
def lowerHexDigit (n : Nat) : Char := if n < 10 then Char.ofNat (48 + n) else Char.ofNat (87 + n)

/-- A character inside a string. -/
def escape (c : Char) : List Char :=
  match c with
  | '"' => ['\\', '"']
  | '\\' => ['\\', '\\']
  | '\x08' => ['\\', 'b']
  | '\x0c' => ['\\', 'f']
  | '\n' => ['\\', 'n']
  | '\r' => ['\\', 'r']
  | '\t' => ['\\', 't']
  | c =>
    if c.toNat < 0x20 then
      ['\\', 'u', '0', '0', lowerHexDigit (c.toNat / 16), lowerHexDigit (c.toNat % 16)]
    else [c]

/-- A text as a string literal. -/
def quote (text : String) : String :=
  String.ofList ('"' :: text.toList.flatMap escape ++ ['"'])

/-- A string literal; one that denotes no text is written as half a surrogate pair. -/
def quoted (text : Option String) : String := text.elim "\"\\ud800\"" quote

/-- The start of a line at a depth. -/
def newLine (depth : Nat) : String := String.ofList ('\n' :: List.replicate (2 * depth) ' ')

mutual

/-- A value whose container is `depth` levels deep. -/
def pretty (depth : Nat) : Value → String
  | .null => "null"
  | .boolean value => if value then "true" else "false"
  | .number literal => literal
  | .string text => quoted text
  | .array [] => "[]"
  | .array (item :: items) =>
    "[" ++ newLine (depth + 1) ++ pretty (depth + 1) item ++ prettyItems (depth + 1) items ++
      newLine depth ++ "]"
  | .object [] => "\x7b\x7d"
  | .object ((key, value) :: fields) =>
    "\x7b" ++ newLine (depth + 1) ++ quoted key ++ ": " ++ pretty (depth + 1) value ++
      prettyFields (depth + 1) fields ++ newLine depth ++ "\x7d"

/-- Further items of an array. -/
def prettyItems (depth : Nat) : List Value → String
  | [] => ""
  | item :: items => "," ++ newLine depth ++ pretty depth item ++ prettyItems depth items

/-- Further fields of an object. -/
def prettyFields (depth : Nat) : List (Option String × Value) → String
  | [] => ""
  | (key, value) :: fields =>
    "," ++ newLine depth ++ quoted key ++ ": " ++ pretty depth value ++ prettyFields depth fields

end

/-- A value as a document. -/
def document (value : Value) : String := pretty 0 value

end ModuleAtlas.Json
