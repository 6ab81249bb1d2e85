import ModuleAtlas.Lexicon.Lexeme
import ModuleAtlas.Text.Blank

/-!
# Words and marks of ECMAScript and its typed variant

What a character begins depends on the grammar: a slash can divide or open a regular expression, an
angle bracket can compare, enclose type arguments or open markup. So tokens are read only where a
phrase asks for them. A line end can stand for a semicolon, which `semicolon` and `sameLine` decide.
-/

namespace ModuleAtlas.EcmaScript

open Syntax Lexicon

/-- What a phrase of the grammar may ask for at a cursor. -/
inductive Terminal where
  | word (text : String)
  | mark (text : String)
  /-- a mark that may be the start of a longer one -/
  | shortMark (text : String)
  /-- a mark after which nothing is blank -/
  | bareMark (text : String)
  /-- an identifier that is none of the words with another meaning at the place; the kind of its node
  tells what it is the name of -/
  | name (kind : String) (taken : List String)
  /-- the name of a private member -/
  | privateName
  | number
  | quoted
  | pattern
  | templateOpen
  | templateText
  | templateClose
  /-- the name of an element or an attribute, which may hold hyphens -/
  | markupName (kind : String)
  /-- the end of an opening tag, after which text stands -/
  | markupBegin
  /-- the start of a closing tag -/
  | markupEnd
  /-- text between elements -/
  | markupText
  /-- a character between elements that is given by its name or number -/
  | reference
  /-- the value of an attribute between quotes -/
  | markupValue
  /-- the line that tells the interpreter -/
  | interpreter
  /-- a comment in the form of a markup comment, up to the end of its line -/
  | oldComment
  /-- no line end stands before the cursor -/
  | sameLine
  /-- a semicolon, or a place where none is needed -/
  | semicolon
  /-- the end of the text -/
  | finish

/-! ## Words

A word is reserved only where it could mean something else; elsewhere it is an identifier. -/

/-- The words that begin an operand or stand in front of one. -/
def operandWords : List String :=
  ["await", "class", "delete", "false", "function", "import", "new", "null", "super", "this",
   "true", "typeof", "undefined", "void", "yield"]

/-- The words that begin a statement or a clause of one. -/
def statementWords : List String :=
  ["break", "case", "catch", "const", "continue", "debugger", "default", "do", "else", "finally",
   "for", "if", "return", "switch", "throw", "try", "var", "while", "with"]

/-- The words that begin a type. -/
def typeWords : List String :=
  ["abstract", "any", "boolean", "const", "false", "import", "infer", "keyof", "never", "new",
   "null", "number", "object", "readonly", "string", "symbol", "this", "true", "typeof", "undefined",
   "unique", "unknown", "void"]

/-! ## Tokens -/

/-- Marks that are longer than one of their beginnings. -/
def marks : List String :=
  [">>>=", "...", "===", "!==", "**=", "<<=", ">>=", ">>>", "&&=", "||=", "??=", "=>", "==", "!=",
   "<=", ">=", "&&", "||", "??", "?.", "++", "--", "+=", "-=", "*=", "/=", "%=", "&=", "|=", "^=",
   "<<", ">>", "**"]

/-- Is the character blank between tokens? -/
def isSpace (c : Char) : Bool :=
  Text.isBlank c || c == '\uFEFF' || c == '\u2060' || c == '\u200B'

/-- A character that may start an identifier. -/
def isNameStart (c : Char) : Bool :=
  if c.toNat < 128 then c.isAlpha || c == '_' || c == '$' || c.toNat == 127
  else !isSpace c

/-- A character that may continue an identifier. -/
def isNamePart (c : Char) : Bool := isNameStart c || c.isDigit

/-- The blank space at a cursor: blanks and both kinds of comments. -/
def blank (c : Cursor) : Nat := slashBlanks isSpace .blanks c.rest 0

/-- Measures the part of an identifier that follows; escapes by number belong to it. The flag asks
for a character that may start an identifier. -/
def nameSize : Bool → List Char → Nat → Nat
  | first, '\\' :: 'u' :: '{' :: rest, count =>
    match rest.findIdx? (· == '}') with
    | some size =>
      let after := rest.drop (size + 1)
      if (rest.take size).all (isDigitOf 16) then
        count + size + 4 + countWhile isNamePart after
      else if first then 0 else count
    | none => if first then 0 else count
  | first, '\\' :: 'u' :: a :: b :: c :: d :: rest, count =>
    if [a, b, c, d].all (isDigitOf 16) then nameSize false rest (count + 6)
    else if first then 0 else count
  | first, c :: rest, count =>
    if isNameStart c || (!first && c.isDigit) then nameSize false rest (count + 1) else count
  | _, [], count => count

/-- Measures a word. -/
def name? (chars : List Char) : Option Nat :=
  let size := nameSize true chars 0
  if size == 0 then none else some size

/-- Measures an identifier that is none of the words in `taken`. -/
def identifier? (taken : List String) (chars : List Char) : Option Nat :=
  (name? chars).filter fun size => !taken.contains (String.ofList (chars.take size))

/-- Measures a keyword. -/
def word? (text : String) (chars : List Char) : Option Nat := keyword? isNamePart text chars

/-- Measures a mark. A question mark before a point and a digit stands alone. -/
def sign? (text : String) (chars : List Char) : Option Nat :=
  match chars with
  | '?' :: '.' :: d :: _ =>
    if d.isDigit then if text == "?" then some 1 else none else mark? marks text chars
  | _ => mark? marks text chars

/-- Measures the inside of a regular expression and its flags. The flag tells that the scan is
inside a character class, where a slash does not end the expression. -/
def patternBody : Bool → List Char → Nat → Option Nat
  | _, [], _ => none
  | inClass, '\\' :: c :: rest, count =>
    if c == '\n' then none else patternBody inClass rest (count + 2)
  | inClass, c :: rest, count =>
    if c == '\n' then none
    else if c == '/' && !inClass then some (count + 1 + countWhile Char.isAlpha rest)
    else
      patternBody (if c == '[' then true else if c == ']' then false else inClass) rest (count + 1)

/-- Measures a regular expression. -/
def pattern? : List Char → Option Nat
  | '/' :: c :: rest => if c == '*' || c == '/' then none else patternBody false (c :: rest) 1
  | _ => none

/-- Measures literal text of a template, up to a substitution or the end. -/
def templateText : List Char → Nat → Nat
  | [], count => count
  | '\\' :: _ :: rest, count => templateText rest (count + 2)
  | '$' :: '{' :: _, count => count
  | c :: rest, count => if c == '`' then count else templateText rest (count + 1)

/-- Measures the escape in a string after its backslash. -/
def stringEscape? : List Char → Option Nat
  | 'u' :: '{' :: rest =>
    let digits := countWhile (isDigitOf 16) rest
    if digits != 0 && rest[digits]? == some '}' then some (digits + 3) else none
  | chars => escape? [('x', 2), ('u', 4)] chars

/-- Measures a string literal. -/
def string? (chars : List Char) : Option Nat :=
  let between := quoted? (fun c => c == '\n' || c == '\r') stringEscape?
  (between '"' chars).or (between '\'' chars)

/-- Measures the name of an element or an attribute. -/
def markupName? (chars : List Char) : Option Nat :=
  (name? chars).map fun size =>
    size + countWhile (fun c => isNamePart c || c == '-') (chars.drop size)

/-- Measures a character given by its name or number, such as `&amp;` or `&#38;`. -/
def reference? : List Char → Option Nat
  | '&' :: rest =>
    let (mark, isPart, most) : Nat × (Char → Bool) × Nat :=
      match rest with
      | '#' :: 'x' :: _ => (2, isDigitOf 16, 6)
      | '#' :: 'X' :: _ => (2, isDigitOf 16, 6)
      | '#' :: _ => (1, Char.isDigit, 5)
      | _ => (0, Char.isAlpha, 30)
    let size := countWhile isPart (rest.drop mark)
    if 0 < size && size ≤ most && rest[mark + size]? == some ';' then some (mark + size + 2)
    else none
  | _ => none

/-- Does every character given by name or number end as it should? -/
def referencesEnd : List Char → Bool
  | [] => true
  | c :: rest =>
    (c != '&' || !(rest.head?.any fun d => d == '#' || d.isAlpha) ||
      (reference? (c :: rest)).isSome) && referencesEnd rest

/-- Measures the value of an attribute. -/
def markupValue? (chars : List Char) : Option Nat :=
  ((rawQuoted? '"' chars).or (rawQuoted? '\'' chars)).filter fun size =>
    referencesEnd (chars.take size)

/-- Measures a private name. -/
def privateName? : List Char → Option Nat
  | '#' :: rest => (name? rest).map (· + 1)
  | _ => none

/-- Measures the line that tells the interpreter. -/
def interpreter? : List Char → Option Nat
  | '#' :: '!' :: rest => some (countWhile (· != '\n') rest + 2)
  | _ => none

/-- Measures a comment that starts or ends like one in markup. -/
def oldComment? (chars : List Char) : Option Nat :=
  if startsWith "<!--".toList chars || startsWith "-->".toList chars then
    some (countWhile (fun c => c != '\n' && c != '\u2028' && c != '\u2029') chars)
  else none

/-- Ends an opening tag; its element stays open. -/
def markupBegin? (c : Cursor) : Option (List Syntax.Node × Cursor) :=
  (c.take? (.mark ">") (fun _ => 0) (mark? [] ">" c.rest)).map fun (tokens, next) =>
    (tokens, { next with opened := ⟨'<', c.row⟩ :: next.opened })

/-- Starts a closing tag; the innermost element is closed. -/
def markupEnd? (c : Cursor) : Option (List Syntax.Node × Cursor) :=
  (c.take? (.mark "</") blank (mark? [] "</" c.rest)).map fun (tokens, next) =>
    (tokens, { next with opened := next.opened.drop 1 })

/-- Reads a terminal. -/
def read (t : Terminal) (c : Cursor) : Option (List Syntax.Node × Cursor) :=
  match t with
  | .word text => c.take? (.word text) blank (word? text c.rest)
  | .mark text => c.take? (.mark text) blank (sign? text c.rest)
  | .shortMark text => c.take? (.mark text) blank (mark? [] text c.rest)
  | .bareMark text => c.take? (.mark text) (fun _ => 0) (mark? [] text c.rest)
  | .name kind taken => c.take? (.named kind) blank (identifier? taken c.rest)
  | .privateName => c.take? (.named "private_property_identifier") blank (privateName? c.rest)
  | .number => c.take? (.named "number") blank (number? ['n'] c.rest)
  | .quoted => c.take? (.named "string") blank (string? c.rest)
  | .pattern => c.take? (.named "regex") blank (pattern? c.rest)
  | .templateOpen => c.take? (.mark "\x60") (fun _ => 0) (mark? [] "\x60" c.rest)
  | .templateText => c.take? (.named "string_fragment") (fun _ => 0) (some (templateText c.rest 0))
  | .templateClose => c.take? (.mark "\x60") blank (mark? [] "\x60" c.rest)
  | .markupName kind => c.take? (.named kind) blank (markupName? c.rest)
  | .markupBegin => markupBegin? c
  | .markupEnd => markupEnd? c
  | .markupText => c.take? (.named "jsx_text") (fun _ => 0)
      (some (countWhile (fun x => !(['{', '}', '<', '>', '&'].contains x)) c.rest))
  | .reference => c.take? (.named "html_character_reference") (fun _ => 0) (reference? c.rest)
  | .markupValue => c.take? (.named "string") blank (markupValue? c.rest)
  | .interpreter => c.take? (.named "hash_bang_line") blank (interpreter? c.rest)
  | .oldComment => c.take? (.named "html_comment") blank (oldComment? c.rest)
  | .sameLine => c.check !c.fresh
  | .semicolon =>
    (c.take? (.mark ";") blank (mark? [] ";" c.rest)).or
      (c.check (c.fresh || c.rest.isEmpty || c.rest.head? == some '}'))
  | .finish => c.check c.rest.isEmpty

end ModuleAtlas.EcmaScript
