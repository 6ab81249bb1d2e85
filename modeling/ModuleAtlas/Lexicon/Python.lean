import ModuleAtlas.Lexicon.Lexeme

/-!
# Words, marks and layout of Python

A line end outside brackets ends a statement, and the indentation of the next line opens or closes
blocks. Blank lines and lines that hold only a comment have no indentation. A formatted string is
not one token: its opening, its literal stretches and its closing are tokens, and what stands in
braces between them is read as source.
-/

namespace ModuleAtlas.Python

open Syntax Lexicon

/-- How a formatted string is quoted. -/
structure Quoting where
  quote : Char
  /-- three quotes on each side, so that line ends may stand between them -/
  triple : Bool
  deriving DecidableEq, Repr

/-- The ways to quote, the longer before the shorter. -/
def quotings : List Quoting := [⟨'"', true⟩, ⟨'\'', true⟩, ⟨'"', false⟩, ⟨'\'', false⟩]

/-- The characters that close a formatted string. -/
def Quoting.closing (q : Quoting) : List Char :=
  if q.triple then [q.quote, q.quote, q.quote] else [q.quote]

/-- What a phrase of the grammar may ask for at a cursor. -/
inductive Terminal where
  | word (text : String)
  | mark (text : String)
  /-- a mark after which nothing is blank -/
  | bareMark (text : String)
  /-- a point, also one that starts a longer mark -/
  | point
  /-- an identifier that is none of the words with another meaning at the place -/
  | name (taken : List String)
  /-- the mark that takes in every name -/
  | wildcard
  | number
  /-- a string without fields -/
  | string
  /-- the prefix and opening quotes of a formatted string -/
  | formatOpen (quoting : Quoting)
  /-- literal text of a formatted string -/
  | formatText (quoting : Quoting)
  /-- literal text of a format specification -/
  | formatSpec (quoting : Quoting)
  | formatClose (quoting : Quoting)
  /-- the conversion of a field, such as `!r` -/
  | conversion
  | newline
  /-- the line is indented deeper than the enclosing block -/
  | indent
  /-- the line is indented at least as deep as the enclosing block -/
  | level
  /-- the line is indented less than the enclosing block, which ends -/
  | dedent
  /-- the end of the text -/
  | finish

/-! ## Words

A word is reserved only where it could mean something else; elsewhere it is an identifier. -/

/-- The words that are operands without being identifiers. -/
def operandWords : List String := ["False", "None", "True"]

/-- The words that may follow an expression. -/
def operatorWords : List String :=
  ["and", "as", "else", "for", "from", "if", "in", "is", "not", "or"]

/-- The words that begin a statement. -/
def statementWords : List String :=
  ["assert", "break", "class", "continue", "def", "del", "for", "from", "global", "if", "import",
   "nonlocal", "pass", "raise", "return", "try", "while", "with"]

/-! ## Tokens -/

/-- Marks that are longer than one of their beginnings. -/
def marks : List String :=
  ["**=", "//=", ">>=", "<<=", "...", "!=", "==", "<=", ">=", "<>", "->", ":=", "+=", "-=", "*=",
   "/=", "%=", "&=", "|=", "^=", "@=", "**", "//", "<<", ">>"]

/-- Is the character blank wherever it stands between tokens? -/
def isSpace (c : Char) : Bool :=
  c == ' ' || c == '\t' || c == '\r' || c == '\x0c' || c == '\uFEFF' || c == '\u2060' ||
    c == '\u200B'

/-- Measures blank space and comments. Line ends are blank only where `lineEnds` says so or a
backslash stands before them. The flag tells that the scan is inside a comment. -/
def blanks (lineEnds : Bool) : Bool → List Char → Nat → Nat
  | _, [], count => count
  | true, c :: rest, count =>
    if c == '\n' then if lineEnds then blanks lineEnds false rest (count + 1) else count
    else blanks lineEnds true rest (count + 1)
  | false, '\\' :: '\n' :: rest, count => blanks lineEnds false rest (count + 2)
  | false, '\\' :: '\r' :: '\n' :: rest, count => blanks lineEnds false rest (count + 3)
  | false, c :: rest, count =>
    if c == '#' then blanks lineEnds true rest (count + 1)
    else if isSpace c || (lineEnds && c == '\n') then blanks lineEnds false rest (count + 1)
    else count

/-- The blank space at a cursor; inside brackets line ends belong to it. -/
def blank (c : Cursor) : Nat := blanks (!c.opened.isEmpty) false c.rest 0

/-- Measures what stands before the next line that holds a token, from the start of a line, and the
indentation of that line. The flag tells that the scan is inside a comment. -/
def layout : Bool → List Char → Nat → Nat → Nat × Nat
  | _, [], count, _ => (count, 0)
  | true, c :: rest, count, column =>
    if c == '\n' then layout false rest (count + 1) 0 else layout true rest (count + 1) column
  | false, '\\' :: '\n' :: rest, count, column => layout false rest (count + 2) column
  | false, c :: rest, count, column =>
    if c == ' ' then layout false rest (count + 1) (column + 1)
    else if c == '\t' then layout false rest (count + 1) (column + 8)
    else if c == '\n' then layout false rest (count + 1) 0
    else if c == '#' then layout true rest (count + 1) column
    else if isSpace c then layout false rest (count + 1) 0
    else (count, column)

/-- The cursor at the first token of a text. -/
def start (text : List Char) : Cursor :=
  let c := Cursor.ofText text fun _ => 0
  let (size, column) := layout false c.rest 0 0
  { c.skip size with column := column }

/-- Ends a line: the cursor moves to the next line that holds a token. -/
def newline? (c : Cursor) : Option (List Syntax.Node × Cursor) :=
  let (size, column) := layout false (c.rest.drop 1) 1 0
  match c.rest with
  | [] => some ([], { c with column := 0 })
  | '\n' :: _ => some ([], { c.skip size with column := column })
  | _ => none

/-- The indentation of the enclosing block. -/
def margin (c : Cursor) : Nat := c.indents.headD 0

/-- Measures the prefix letters of a string. -/
def prefixSize (chars : List Char) : Nat :=
  let size := countWhile (fun c => ['r', 'b', 'u', 'f'].contains c.toLower) chars
  if size ≤ 2 then size else 0

/-- Does a prefix ask for fields? -/
def isFormat (letters : List Char) : Bool := letters.any fun c => c.toLower == 'f'

/-- Measures a string body and its closing quotes. -/
def stringBody (q : Quoting) : List Char → Nat → Option Nat
  | [], _ => none
  | '\\' :: _ :: rest, count => stringBody q rest (count + 2)
  | c :: rest, count =>
    if startsWith q.closing (c :: rest) then some (count + q.closing.length)
    else if c == '\n' && !q.triple then none
    else stringBody q rest (count + 1)

/-- Measures a string without fields. -/
def string? (chars : List Char) : Option Nat :=
  let size := prefixSize chars
  let body := chars.drop size
  if isFormat (chars.take size) then none
  else match quotings.find? (fun q => startsWith q.closing body) with
    | some q => stringBody q (body.drop q.closing.length) (size + q.closing.length)
    | none => none

/-- Measures the prefix and the opening quotes of a formatted string. -/
def formatOpen? (q : Quoting) (chars : List Char) : Option Nat :=
  let size := prefixSize chars
  let body := chars.drop size
  if isFormat (chars.take size) && quotings.find? (fun p => startsWith p.closing body) == some q
  then some (size + q.closing.length) else none

/-- Measures literal text of a formatted string, up to a field or the closing quotes. The flag tells
that the scan is inside the braces of a character given by name. -/
def formatText (q : Quoting) : Bool → List Char → Nat → Nat
  | _, [], count => count
  | true, c :: rest, count => formatText q (c != '}') rest (count + 1)
  | false, '{' :: '{' :: rest, count => formatText q false rest (count + 2)
  | false, '}' :: '}' :: rest, count => formatText q false rest (count + 2)
  | false, '\\' :: 'N' :: '{' :: rest, count => formatText q true rest (count + 3)
  | false, '\\' :: c :: rest, count =>
    if c == '{' || c == '}' then formatText q false (c :: rest) (count + 1)
    else formatText q false rest (count + 2)
  | false, c :: rest, count =>
    if c == '{' || c == '}' || startsWith q.closing (c :: rest) || (c == '\n' && !q.triple)
    then count else formatText q false rest (count + 1)

/-- Measures literal text of a format specification. -/
def formatSpec (q : Quoting) : List Char → Nat → Nat
  | [], count => count
  | c :: rest, count =>
    if c == '{' || c == '}' || startsWith q.closing (c :: rest) || (c == '\n' && !q.triple)
    then count else formatSpec q rest (count + 1)

/-- Measures a conversion: an exclamation mark and a letter. -/
def conversion? : List Char → Option Nat
  | '!' :: c :: _ => if c.isAlpha then some 2 else none
  | _ => none

/-- Measures an identifier that is none of the words in `taken`. -/
def identifier? (taken : List String) (chars : List Char) : Option Nat :=
  (word? Text.isIdStart Text.isIdContinue chars).filter fun size =>
    !taken.contains (String.ofList (chars.take size))

/-- Reads a terminal. -/
def read (t : Terminal) (c : Cursor) : Option (List Syntax.Node × Cursor) :=
  match t with
  | .word text => c.take? (.word text) blank (keyword? Text.isIdContinue text c.rest)
  | .mark text => c.take? (.mark text) blank (mark? marks text c.rest)
  | .bareMark text => c.take? (.mark text) (fun _ => 0) (mark? [] text c.rest)
  | .point => c.take? (.mark ".") blank (mark? [] "." c.rest)
  | .name taken => c.take? (.named "identifier") blank (identifier? taken c.rest)
  | .wildcard => c.take? (.named "wildcard_import") blank (mark? marks "*" c.rest)
  | .number => c.take? (.named "integer") blank (number? ['j', 'J', 'l', 'L'] c.rest)
  | .string => c.take? (.named "string") blank (string? c.rest)
  | .formatOpen q => c.take? (.named "string_start") (fun _ => 0) (formatOpen? q c.rest)
  | .formatText q =>
    c.take? (.named "string_content") (fun _ => 0) (some (formatText q false c.rest 0))
  | .formatSpec q =>
    c.take? (.named "format_specifier") (fun _ => 0) (some (formatSpec q c.rest 0))
  | .formatClose q => c.take? (.named "string_end") blank
      (if startsWith q.closing c.rest then some q.closing.length else none)
  | .conversion => c.take? (.named "type_conversion") (fun _ => 0) (conversion? c.rest)
  | .newline => newline? c
  | .indent =>
    if margin c < c.column then some ([], { c with indents := c.column :: c.indents }) else none
  | .level => c.check (margin c ≤ c.column)
  | .dedent =>
    if c.column < margin c then some ([], { c with indents := c.indents.drop 1 }) else none
  | .finish => c.check c.rest.isEmpty

end ModuleAtlas.Python
