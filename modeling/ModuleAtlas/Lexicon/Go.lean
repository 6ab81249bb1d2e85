import ModuleAtlas.Lexicon.Lexeme

/-!
# Words and marks of Go

Line ends separate statements, so two terminals look at them: `joined` asks that none lies before
the cursor, `continued` asks this only where a line end could end a statement, that is outside
parentheses and square brackets.
-/

namespace ModuleAtlas.Go

open Syntax Lexicon

/-- What a phrase of the grammar may ask for at a cursor. -/
inductive Terminal where
  | word (text : String)
  | mark (text : String)
  /-- an identifier that is none of the words with another meaning at the place; the kind of its node
  tells what it is the name of -/
  | name (kind : String) (taken : List String)
  /-- the low line in place of an import's name -/
  | blankName
  /-- the point in place of an import's name -/
  | dot
  /-- one of the predeclared constants -/
  | constant (text : String)
  | number
  | rune
  /-- a string with escapes -/
  | string
  /-- a string between backticks -/
  | rawString
  /-- the end of a statement -/
  | terminator
  | joined
  | continued
  /-- the end of the text -/
  | finish

/-! ## Words

A word is reserved only where it could mean something else; elsewhere it is an identifier. -/

/-- The predeclared constants, which are no identifiers among operands. -/
def constants : List String := ["nil", "true", "false", "iota"]

/-- The words that begin a type. -/
def typeWords : List String := ["chan", "func", "interface", "map", "struct"]

/-- The words that begin an operand. -/
def operandWords : List String := typeWords ++ constants

/-- The words that begin a statement or a clause of one. -/
def statementWords : List String :=
  ["break", "case", "const", "continue", "default", "defer", "fallthrough", "for", "go",
   "goto", "if", "import", "package", "return", "select", "switch", "type", "var"]

/-! ## Tokens -/

/-- Marks that are longer than one of their beginnings. -/
def marks : List String :=
  ["...", "<<=", ">>=", "&^=", "<-", "++", "--", "+=", "-=", "*=", "/=", "%=", "&=", "|=", "^=",
   "&&", "||", "==", "!=", "<=", ">=", "<<", ">>", "&^", ":="]

/-- The blank space at a cursor: ASCII blanks and both kinds of comments. -/
def blank (c : Cursor) : Nat :=
  slashBlanks (fun x => x == ' ' || ('\t' ≤ x && x ≤ '\r')) .blanks c.rest 0

/-- Measures an identifier that is none of the words in `taken`. -/
def identifier? (taken : List String) (chars : List Char) : Option Nat :=
  (word? Text.isIdStart Text.isIdContinue chars).filter fun size =>
    !taken.contains (String.ofList (chars.take size))

/-- Measures the escape of a rune after its backslash. -/
def runeEscape? (chars : List Char) : Option Nat :=
  if (chars.take 3).length == 3 && (chars.take 3).all (isDigitOf 8) then some 3
  else if chars.head?.any ("xuUabfnrtv\\'\"".toList.contains ·) then
    escape? [('x', 2), ('u', 4), ('U', 8)] chars
  else none

/-- Measures a rune: one character between single quotes. -/
def rune? : List Char → Option Nat
  | '\'' :: '\\' :: rest => (runeEscape? rest).bind fun size =>
    if rest[size]? == some '\'' then some (size + 3) else none
  | '\'' :: c :: '\'' :: _ => if c == '\'' then none else some 3
  | _ => none

/-- Measures a string with escapes. -/
def string? (chars : List Char) : Option Nat :=
  quoted? (· == '\n') (escape? [('x', 2), ('u', 4), ('U', 8)]) '"' chars

/-- Reads a terminal. -/
def read (t : Terminal) (c : Cursor) : Option (List Syntax.Node × Cursor) :=
  match t with
  | .word text => c.take? (.word text) blank (keyword? Text.isIdContinue text c.rest)
  | .mark text => c.take? (.mark text) blank (mark? marks text c.rest)
  | .name kind taken => c.take? (.named kind) blank (identifier? taken c.rest)
  | .blankName => c.take? (.named "blank_identifier") blank (keyword? Text.isIdContinue "_" c.rest)
  | .dot => c.take? (.named "dot") blank (mark? marks "." c.rest)
  | .constant text => c.take? (.named text) blank (keyword? Text.isIdContinue text c.rest)
  | .number => c.take? (.named "int_literal") blank (number? ['i'] c.rest)
  | .rune => c.take? (.named "rune_literal") blank (rune? c.rest)
  | .string => c.take? (.named "interpreted_string_literal") blank (string? c.rest)
  | .rawString => c.take? (.named "raw_string_literal") blank (rawQuoted? '`' c.rest)
  | .terminator =>
    (c.take? (.mark ";") blank (mark? marks ";" c.rest)).or
      (c.check (c.fresh || c.rest.isEmpty || c.rest.head?.any Cursor.isCloser))
  | .joined => c.check !c.fresh
  | .continued => c.check (!c.fresh || c.opened.head?.any (fun o => o.mark != '{'))
  | .finish => c.check c.rest.isEmpty

end ModuleAtlas.Go
