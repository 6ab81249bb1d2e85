import ModuleAtlas.Json.Reader

/-!
# Quoted strings

Four kinds of string: on one line or on several, with escapes or without. Line ends inside a string
are read as line feeds. A backslash at the end of a line joins it with the next text.
-/

namespace ModuleAtlas.Toml

/-- A blank inside a line. -/
def isSpace (c : Char) : Bool := c == ' ' || c == '\t'

/-- A character that may stand for itself on a line: a tab, or no control character. -/
def isPlain (c : Char) : Bool := c == '\t' || (0x20 ≤ c.toNat && c.toNat != 0x7F)

/-- The character of a one-letter escape. -/
def escaped? (c : Char) : Option Char :=
  match c with
  | 'b' => some '\x08'
  | 't' => some '\t'
  | 'n' => some '\n'
  | 'f' => some '\x0c'
  | 'r' => some '\r'
  | '"' => some '"'
  | '\\' => some '\\'
  | _ => none

/-- The character whose code is given by hexadecimal digits. -/
def charOfHex? (digits : List Char) : Option Char :=
  (Json.hexValue? digits).bind fun code =>
    if code.isValidChar then some (Char.ofNat code) else none

/-- Puts a character in front of a string that was read. -/
def cons (c : Char) (read : Option (List Char × List Char)) : Option (List Char × List Char) :=
  read.map fun (chars, rest) => (c :: chars, rest)

/-- A string with escapes on one line, after its opening quote. -/
def readBasic : List Char → Option (List Char × List Char)
  | [] => none
  | '"' :: rest => some ([], rest)
  | '\\' :: 'u' :: a :: b :: c :: d :: rest =>
    (charOfHex? [a, b, c, d]).bind (cons · (readBasic rest))
  | '\\' :: 'U' :: a :: b :: c :: d :: e :: f :: g :: h :: rest =>
    (charOfHex? [a, b, c, d, e, f, g, h]).bind (cons · (readBasic rest))
  | '\\' :: c :: rest => (escaped? c).bind (cons · (readBasic rest))
  | c :: rest => if isPlain c then cons c (readBasic rest) else none

/-- A string without escapes on one line, after its opening quote. -/
def readLiteral : List Char → Option (List Char × List Char)
  | [] => none
  | '\'' :: rest => some ([], rest)
  | c :: rest => if isPlain c then cons c (readLiteral rest) else none

/-- What a string of several lines is doing with blank space. -/
inductive Fold where
  /-- keeping it -/
  | keep
  /-- after a backslash that the end of its line has to follow -/
  | toLineEnd
  /-- after a joined line end -/
  | joined
  deriving DecidableEq

/-- A string with escapes on several lines, after its opening quotes. Up to two quotes may stand
before the closing ones. -/
def readBasicLines (fold : Fold) : List Char → Option (List Char × List Char)
  | [] => none
  | '\r' :: '\n' :: rest =>
    if fold = .keep then cons '\n' (readBasicLines .keep rest) else readBasicLines .joined rest
  | '\n' :: rest =>
    if fold = .keep then cons '\n' (readBasicLines .keep rest) else readBasicLines .joined rest
  | ' ' :: rest =>
    if fold = .keep then cons ' ' (readBasicLines .keep rest) else readBasicLines fold rest
  | '\t' :: rest =>
    if fold = .keep then cons '\t' (readBasicLines .keep rest) else readBasicLines fold rest
  | '"' :: '"' :: '"' :: '"' :: '"' :: rest =>
    if fold = .toLineEnd then none else some (['"', '"'], rest)
  | '"' :: '"' :: '"' :: '"' :: rest => if fold = .toLineEnd then none else some (['"'], rest)
  | '"' :: '"' :: '"' :: rest => if fold = .toLineEnd then none else some ([], rest)
  | '\\' :: 'u' :: a :: b :: c :: d :: rest =>
    if fold = .toLineEnd then none
    else (charOfHex? [a, b, c, d]).bind (cons · (readBasicLines .keep rest))
  | '\\' :: 'U' :: a :: b :: c :: d :: e :: f :: g :: h :: rest =>
    if fold = .toLineEnd then none
    else (charOfHex? [a, b, c, d, e, f, g, h]).bind (cons · (readBasicLines .keep rest))
  | '\\' :: c :: rest =>
    if fold = .toLineEnd then none
    else if isSpace c || c == '\n' || c == '\r' then
      -- the blank space itself is looked at again
      readBasicLines .toLineEnd (c :: rest)
    else (escaped? c).bind (cons · (readBasicLines .keep rest))
  | c :: rest =>
    if fold = .toLineEnd ∨ !isPlain c then none else cons c (readBasicLines .keep rest)

/-- A string without escapes on several lines, after its opening quotes. -/
def readLiteralLines : List Char → Option (List Char × List Char)
  | [] => none
  | '\r' :: '\n' :: rest => cons '\n' (readLiteralLines rest)
  | '\n' :: rest => cons '\n' (readLiteralLines rest)
  | '\'' :: '\'' :: '\'' :: '\'' :: '\'' :: rest => some (['\'', '\''], rest)
  | '\'' :: '\'' :: '\'' :: '\'' :: rest => some (['\''], rest)
  | '\'' :: '\'' :: '\'' :: rest => some ([], rest)
  | c :: rest => if isPlain c then cons c (readLiteralLines rest) else none

/-- Drops the line end right after the opening quotes. -/
def dropFirstLineEnd : List Char → List Char
  | '\n' :: rest => rest
  | '\r' :: '\n' :: rest => rest
  | rest => rest

/-- A string of any kind at the start of a text. -/
def readQuoted (chars : List Char) : Option (String × List Char) :=
  let read :=
    match chars with
    | '"' :: '"' :: '"' :: rest => readBasicLines .keep (dropFirstLineEnd rest)
    | '"' :: rest => readBasic rest
    | '\'' :: '\'' :: '\'' :: rest => readLiteralLines (dropFirstLineEnd rest)
    | '\'' :: rest => readLiteral rest
    | _ => none
  read.map fun (text, rest) => (String.ofList text, rest)

end ModuleAtlas.Toml
