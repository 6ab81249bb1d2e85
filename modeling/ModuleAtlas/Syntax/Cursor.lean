import ModuleAtlas.Syntax.Node

/-!
# Reading positions

A cursor is a position in a source text at the start of a token. Reading a token moves it past the
token and the blank space that follows, counts bytes and lines, and keeps the brackets that stand
open.
-/

namespace ModuleAtlas.Syntax

/-- A bracket that has been opened, and the line it stands on. -/
structure Opening where
  mark : Char
  row : Nat
  deriving DecidableEq, Repr

/-- A position in a source text. Lines are counted from 0. -/
structure Cursor where
  rest : List Char
  row : Nat := 0
  /-- bytes before the position -/
  offset : Nat := 0
  /-- a line end lies between the last token and the position -/
  fresh : Bool := true
  /-- the line the last token ends on -/
  ended : Nat := 0
  /-- open brackets, innermost first -/
  opened : List Opening := []
  /-- indentation of the enclosing blocks, innermost first, where layout matters -/
  indents : List Nat := []
  /-- indentation of the line that starts at the position, where layout matters -/
  column : Nat := 0

/-- What a token is. -/
inductive Lexeme where
  /-- a token of a kind, such as an identifier or a number -/
  | named (kind : String)
  /-- a keyword -/
  | word (text : String)
  /-- a punctuation mark -/
  | mark (text : String)

namespace Lexeme

/-- The kind of the node that a token is. Keywords and punctuation are kinds of their own. -/
def kind : Lexeme → String
  | .named kind => kind
  | .word text => text
  | .mark text => text

/-- The grammar has a name for the token. -/
def isNamed : Lexeme → Bool
  | .named _ => true
  | _ => false

end Lexeme

namespace Cursor

/-- The closing bracket that belongs to an opening one. -/
def closerOf (mark : Char) : Char :=
  if mark == '(' then ')' else if mark == '[' then ']' else '}'

/-- Is the character a closing bracket? -/
def isCloser (c : Char) : Bool := c == ')' || c == ']' || c == '}'

/-- Is the character an opening bracket? -/
def isOpener (c : Char) : Bool := c == '(' || c == '[' || c == '{'

/-- The open brackets after a token: a mark that ends in an opening bracket opens it, one that is a
closing bracket closes the innermost. -/
def track (row : Nat) (lexeme : Lexeme) (opened : List Opening) : List Opening :=
  match lexeme with
  | .mark text =>
    match text.toList.getLast? with
    | none => opened
    | some c =>
      if isOpener c then ⟨c, row⟩ :: opened
      else if isCloser c then opened.drop 1
      else opened
  | _ => opened

/-- Moves past `count` characters. -/
def skip (c : Cursor) (count : Nat) : Cursor :=
  let passed := c.rest.take count
  { c with
    rest := c.rest.drop count
    row := c.row + passed.count '\n'
    offset := c.offset + Text.byteCount passed
    fresh := passed.contains '\n' }

/-- Reads a token of `size` characters; `blank` measures the blank space that follows it. -/
def take (c : Cursor) (lexeme : Lexeme) (size : Nat) (blank : Cursor → Nat) : Node × Cursor :=
  let moved := c.skip size
  let past := { moved with opened := track c.row lexeme c.opened, ended := moved.row }
  (.mk { kind := lexeme.kind, isNamed := lexeme.isNamed, start := c.offset, stop := moved.offset,
         row := c.row } [],
   past.skip (blank past))

/-- Reads one token where its size is known, and nothing otherwise. No token is empty. -/
def take? (c : Cursor) (lexeme : Lexeme) (blank : Cursor → Nat) (size : Option Nat) :
    Option (List Node × Cursor) :=
  (size.filter (0 < ·)).map fun n => let (token, next) := c.take lexeme n blank; ([token], next)

/-- Reads nothing and stays, where a condition holds. -/
def check (c : Cursor) (holds : Bool) : Option (List Node × Cursor) :=
  if holds then some ([], c) else none

/-- The cursor at the first token of a text; a byte order mark may stand in front. -/
def ofText (text : List Char) (blank : Cursor → Nat) : Cursor :=
  let whole : Cursor := { rest := text }
  let start := if text.head? == some '\uFEFF' then whole.skip 1 else whole
  { start.skip (blank start) with fresh := true }

/-! ## Where a text goes wrong -/

/-- The open brackets, innermost first, that nothing in the remaining text closes. The second
argument holds the brackets that the remaining text has opened itself. -/
def neverClosed : List Char → List Char → List Opening → List Opening
  | [], _, outer => outer
  | c :: rest, inner, outer =>
    if isOpener c then neverClosed rest (c :: inner) outer
    else if isCloser c then
      match inner, outer with
      | mark :: inner', _ => if closerOf mark == c then neverClosed rest inner' outer else outer
      | [], opening :: outer' =>
        if closerOf opening.mark == c then neverClosed rest [] outer' else outer
      | [], [] => []
    else neverClosed rest inner outer

/-- The line to report for a text that cannot be read past the cursor. If brackets around the cursor
are never closed, it is the line of the outermost of them, or of the last token where only braces
are left open at the end; otherwise it is the line of the cursor. Elements of markup count as
brackets only at the end of the text. -/
def faultRow (c : Cursor) : Nat :=
  let opened := if c.rest.isEmpty then c.opened else c.opened.filter (·.mark != '<')
  match (neverClosed c.rest [] opened).reverse with
  | [] => if c.rest.isEmpty then c.ended else c.row
  | outermost :: more =>
    match (outermost :: more).find? (·.mark != '{') with
    | some opening => opening.row
    | none => if c.rest.isEmpty then c.ended else outermost.row

end Cursor

end ModuleAtlas.Syntax
