import ModuleAtlas.Syntax.Cursor
import ModuleAtlas.Text.Letter

/-!
# Lexemes shared by the languages

Each function measures a lexeme at the start of a list of characters: words, numbers, quoted texts,
comments. The measure is the number of characters, and a lexeme that is not there measures `none`.
-/

namespace ModuleAtlas.Lexicon

/-- The number of characters at the start that satisfy `p`. -/
def countWhile (p : Char → Bool) (chars : List Char) : Nat :=
  (chars.takeWhile p).length

/-- Measures a word made of one `start` character and `part` characters after it. -/
def word? (start part : Char → Bool) : List Char → Option Nat
  | [] => none
  | c :: rest => if start c then some (countWhile part rest + 1) else none

/-- Does the list start with the characters of `text`? -/
def startsWith (text : List Char) (chars : List Char) : Bool :=
  text.isPrefixOf chars

/-- Measures the given word where no `part` character follows it. -/
def keyword? (part : Char → Bool) (text : String) (chars : List Char) : Option Nat :=
  let letters := text.toList
  if startsWith letters chars && !((chars.drop letters.length).head?.any part) then
    some letters.length
  else none

/-- Measures the given punctuation mark where no longer one of `marks` stands there. -/
def mark? (marks : List String) (text : String) (chars : List Char) : Option Nat :=
  let signs := text.toList
  if startsWith signs chars &&
      !(marks.any fun m => text.length < m.length && startsWith m.toList chars) then
    some signs.length
  else none

/-- A digit of a base up to sixteen. -/
def isDigitOf (base : Nat) (c : Char) : Bool :=
  (c.isDigit && c.toNat - '0'.toNat < base) ||
    (base == 16 && (('a' ≤ c && c ≤ 'f') || ('A' ≤ c && c ≤ 'F')))

/-- Measures digits with single low lines between them. The flag allows one in front as well. -/
def digitsOf (base : Nat) : Bool → List Char → Nat → Nat
  | joined, '_' :: c :: rest, count =>
    if joined && isDigitOf base c then digitsOf base true rest (count + 2) else count
  | _, c :: rest, count =>
    if isDigitOf base c then digitsOf base true rest (count + 1) else count
  | _, [], count => count

/-- Measures an exponent: one of `letters`, perhaps a sign, and digits. -/
def exponent (letters : List Char) : List Char → Nat
  | c :: '+' :: d :: rest => if letters.contains c && d.isDigit then
      digitsOf 10 true rest 3 else 0
  | c :: '-' :: d :: rest => if letters.contains c && d.isDigit then
      digitsOf 10 true rest 3 else 0
  | c :: d :: rest => if letters.contains c && d.isDigit then
      digitsOf 10 true rest 2 else 0
  | _ => 0

/-- Measures a point and the digits of `base` after it. -/
def fraction (base : Nat) : List Char → Nat
  | '.' :: rest => digitsOf base false rest 1
  | _ => 0

/-- Measures a number after the leading zero of its base mark, or just that zero where no digits
follow the mark. A fraction in base sixteen has an exponent. -/
def basedNumber (base : Nat) (chars : List Char) : Nat :=
  let digits := digitsOf base true chars 0
  let point := fraction base (chars.drop digits)
  let power := exponent ['p', 'P'] (chars.drop (digits + point))
  if base == 16 && power != 0 then 2 + digits + point + power
  else if digits == 0 then 1
  else 2 + digits

/-- Measures a number: decimal with fraction and exponent, or based with `0x`, `0o` or `0b`; a
letter of `suffixes` may follow it. -/
def number? (suffixes : List Char) (chars : List Char) : Option Nat :=
  let size := match chars with
    | '0' :: x :: rest =>
      if x == 'x' || x == 'X' then basedNumber 16 rest
      else if x == 'o' || x == 'O' then basedNumber 8 rest
      else if x == 'b' || x == 'B' then basedNumber 2 rest
      else decimal chars
    | c :: _ => if c.isDigit then decimal chars else pointed chars
    | [] => 0
  if size == 0 then none
  else match chars.drop size with
    | c :: _ => some (if suffixes.contains c then size + 1 else size)
    | [] => some size
where
  /-- Measures digits with a fraction and an exponent. -/
  decimal (chars : List Char) : Nat :=
    let digits := digitsOf 10 false chars 0
    let point := fraction 10 (chars.drop digits)
    digits + point + exponent ['e', 'E'] (chars.drop (digits + point))
  /-- Measures a number that starts with its point. -/
  pointed : List Char → Nat
    | '.' :: d :: rest =>
      if d.isDigit then
        let digits := digitsOf 10 true rest 0
        2 + digits + exponent ['e', 'E'] (rest.drop digits)
      else 0
    | _ => 0

/-- Measures what a backslash takes with it: one character, and the hexadecimal digits that have to
follow certain letters. -/
def escape? (hexadecimal : List (Char × Nat)) : List Char → Option Nat
  | [] => none
  | '\r' :: '\n' :: _ => some 2
  | c :: rest =>
    let size := (hexadecimal.lookup c).getD 0
    let digits := rest.take size
    if digits.length == size && digits.all (isDigitOf 16) then some (size + 1) else none

/-- Measures the inside of a quoted text and its closing quote. What `escape` measures after a
backslash belongs to the text, and a bare character that satisfies `stops` ends the search. The
number tells how many characters belong to the text in any case. -/
def untilQuote (quote : Char) (stops : Char → Bool) (escape : List Char → Option Nat) :
    Nat → List Char → Nat → Option Nat
  | _, [], _ => none
  | passed + 1, _ :: rest, count => untilQuote quote stops escape passed rest (count + 1)
  | 0, c :: rest, count =>
    if c == quote then some (count + 1)
    else if stops c then none
    else
      (if c == '\\' then escape rest else some 0).bind fun size =>
        untilQuote quote stops escape size rest (count + 1)

/-- Measures a text between two `quote` characters. -/
def quoted? (stops : Char → Bool) (escape : List Char → Option Nat) (quote : Char) :
    List Char → Option Nat
  | c :: rest => if c == quote then untilQuote quote stops escape 0 rest 1 else none
  | [] => none

/-- Measures a text between two `quote` characters over any lines and without escapes. -/
def rawQuoted? (quote : Char) (chars : List Char) : Option Nat :=
  quoted? (fun _ => false) (fun _ => some 0) quote chars

/-- Does the closing text occur? -/
def occurs (close : List Char) : List Char → Bool
  | [] => false
  | c :: rest => startsWith close (c :: rest) || occurs close rest

/-- What a scan of blank space is inside of. -/
inductive BlankMode where
  | blanks
  | lineComment
  | blockComment

/-- Measures blank characters, line comments and block comments of the curly-bracket languages. A
block comment that is not closed is no blank space. -/
def slashBlanks (isBlank : Char → Bool) : BlankMode → List Char → Nat → Nat
  | .blanks, '/' :: '/' :: rest, count => slashBlanks isBlank .lineComment rest (count + 2)
  | .blanks, '/' :: '*' :: rest, count =>
    if occurs ['*', '/'] rest then slashBlanks isBlank .blockComment rest (count + 2) else count
  | .blanks, c :: rest, count =>
    if isBlank c then slashBlanks isBlank .blanks rest (count + 1) else count
  | .lineComment, c :: rest, count =>
    slashBlanks isBlank (if c == '\n' then .blanks else .lineComment) rest (count + 1)
  | .blockComment, '*' :: '/' :: rest, count => slashBlanks isBlank .blanks rest (count + 2)
  | .blockComment, _ :: rest, count => slashBlanks isBlank .blockComment rest (count + 1)
  | _, [], count => count

end ModuleAtlas.Lexicon
