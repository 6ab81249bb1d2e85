import ModuleAtlas.Toml.Draft
import ModuleAtlas.Toml.Quoted
import ModuleAtlas.Toml.Scalar

/-!
# Reading TOML

`parse` reads a whole document, line by line: a header, a key with its value, or nothing, and perhaps
a comment. A byte order mark in front is skipped.
-/

namespace ModuleAtlas.Toml

/-- The limit on the nesting of values and on the parts of a key. -/
def depthLimit : Nat := 80

/-- The text after the blanks of a line. -/
def skipSpaces (chars : List Char) : List Char := chars.dropWhile isSpace

/-- The text after blank space, line ends and comments. It stops before a character that no comment
may hold. -/
def skipLayout (inComment : Bool) : List Char → List Char
  | [] => []
  | '\n' :: rest => skipLayout false rest
  | '\r' :: '\n' :: rest => skipLayout false rest
  | c :: rest =>
    if inComment then if isPlain c then skipLayout true rest else c :: rest
    else if isSpace c then skipLayout false rest
    else if c = '#' then skipLayout true rest
    else c :: rest

/-- The text after the end of a line, with a comment before it. The end of the text also ends a
line. -/
def endLine? (chars : List Char) : Option (List Char) :=
  let rest := skipSpaces chars
  let rest := if rest.head? = some '#' then rest.dropWhile isPlain else rest
  match rest with
  | [] => some []
  | '\n' :: rest => some rest
  | '\r' :: '\n' :: rest => some rest
  | _ => none

/-! ## Keys -/

/-- A character of a key without quotes. -/
def isKeyChar (c : Char) : Bool := c.isAlphanum || c == '_' || c == '-'

/-- One part of a key. A quoted part is on one line. -/
def readKeyPart (chars : List Char) : Option (String × List Char) :=
  match chars with
  | '"' :: rest => (readBasic rest).map fun (text, rest) => (String.ofList text, rest)
  | '\'' :: rest => (readLiteral rest).map fun (text, rest) => (String.ofList text, rest)
  | _ =>
    let part := chars.takeWhile isKeyChar
    if part.isEmpty then none else some (String.ofList part, chars.dropWhile isKeyChar)

/-- The parts of a dotted key, with the blanks around it. Each part uses one unit of the first
argument. -/
def readKey : Nat → List Char → Option (List String × List Char)
  | 0, _ => none
  | more + 1, chars => do
    let (part, rest) ← readKeyPart (skipSpaces chars)
    match skipSpaces rest with
    | '.' :: rest => (readKey more rest).map fun (parts, rest) => (part :: parts, rest)
    | rest => some ([part], rest)

/-! ## Values -/

mutual

/-- A value at the start of a text, inside `level` arrays and inline tables. Each level and each item
uses one unit of the first argument. -/
def readValue : Nat → Nat → List Char → Option (Value × List Char)
  | 0, _, _ => none
  | fuel + 1, level, chars =>
    match chars with
    | '[' :: rest =>
      if depthLimit ≤ level + 1 then none
      else (readItems fuel (level + 1) (skipLayout false rest)).map fun (items, rest) =>
        (.array items, rest)
    | '\x7b' :: rest =>
      if depthLimit ≤ level + 1 then none
      else
        match skipSpaces rest with
        | '\x7d' :: rest => some (.table [], rest)
        | rest => (readPairs fuel (level + 1) [] rest).map fun (entries, rest) =>
          (.table (Item.entriesToValues entries), rest)
    | '"' :: _ => (readQuoted chars).map fun (text, rest) => (.text text, rest)
    | '\'' :: _ => (readQuoted chars).map fun (text, rest) => (.text text, rest)
    | _ => readScalar chars

/-- The items of an array up to its closing bracket. A comma may follow the last one. -/
def readItems : Nat → Nat → List Char → Option (List Value × List Char)
  | 0, _, _ => none
  | fuel + 1, level, chars =>
    match chars with
    | ']' :: rest => some ([], rest)
    | _ => do
      let (item, rest) ← readValue fuel level chars
      match skipLayout false rest with
      | ',' :: rest =>
        (readItems fuel level (skipLayout false rest)).map fun (items, rest) => (item :: items, rest)
      | ']' :: rest => some ([item], rest)
      | _ => none

/-- The pairs of an inline table up to its closing brace, added to those before. -/
def readPairs : Nat → Nat → Entries → List Char → Option (Entries × List Char)
  | 0, _, _, _ => none
  | fuel + 1, level, entries, chars => do
    let (parts, rest) ← readKey (depthLimit - 1) chars
    match rest with
    | '=' :: rest =>
      let (value, rest) ← readValue fuel level (skipSpaces rest)
      let entries ← entries.insert parts.dropLast (parts.getLast?.getD "") value
      match skipSpaces rest with
      | ',' :: rest => readPairs fuel level entries rest
      | '\x7d' :: rest => some (entries, rest)
      | _ => none
    | _ => none

end

/-! ## Documents -/

/-- A header with its brackets; `true` for one table of an array. -/
def readHeader (chars : List Char) : Option (Bool × List String × List Char) := do
  match chars with
  | '[' :: rest =>
    let (path, rest) ← readKey (depthLimit - 1) rest
    match rest with
    | ']' :: ']' :: rest => some (true, path, rest)
    | _ => none
  | _ =>
    let (path, rest) ← readKey (depthLimit - 1) chars
    match rest with
    | ']' :: rest => some (false, path, rest)
    | _ => none

/-- Reads one line into a draft: a header, or a key with its value. -/
def readLine (draft : Draft) (chars : List Char) : Option (Draft × List Char) := do
  match chars with
  | '[' :: rest =>
    let (inArray, path, rest) ← readHeader rest
    let rest ← endLine? rest
    let draft ← if inArray then draft.openInArray path else draft.openTable path
    return (draft, rest)
  | _ =>
    let (parts, rest) ← readKey (depthLimit - 1) chars
    match rest with
    | '=' :: rest =>
      let rest := skipSpaces rest
      let (value, rest) ← readValue (rest.length + 1) 0 rest
      let rest ← endLine? rest
      let draft ← draft.insert parts.dropLast (parts.getLast?.getD "") value
      return (draft, rest)
    | _ => none

/-- Reads the remaining lines into a draft. Each line uses one unit of the first argument. -/
def readLines : Nat → Draft → List Char → Option Value
  | 0, _, _ => none
  | fuel + 1, draft, chars =>
    match skipLayout false chars with
    | [] => draft.finish
    | rest => (readLine draft rest).bind fun (draft, rest) => readLines fuel draft rest

/-- The root table of a document. -/
def parse (text : String) : Option Value :=
  let chars := text.toList
  let chars := if chars.head? = some '\uFEFF' then chars.drop 1 else chars
  readLines (chars.length + 1) {} chars

end ModuleAtlas.Toml
