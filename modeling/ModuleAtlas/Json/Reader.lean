import ModuleAtlas.Json.Value

/-!
# Reading JSON

`parse` reads one JSON value with blank space around it and nothing else. It accepts the standard
grammar only: no comments, no trailing commas, no byte order mark.
-/

namespace ModuleAtlas.Json

/-- Blank space between tokens. -/
def isBlank (c : Char) : Bool := c == ' ' || c == '\t' || c == '\n' || c == '\r'

/-- The text after blank space. -/
def skipBlank (chars : List Char) : List Char := chars.dropWhile isBlank

/-! ## Numbers -/

/-- A character that may stand in a number. -/
def isNumberChar (c : Char) : Bool :=
  c.isDigit || c == '-' || c == '+' || c == '.' || c == 'e' || c == 'E'

/-- Digits without a superfluous zero in front. -/
def isWhole (digits : List Char) : Bool :=
  match digits with
  | [] => false
  | ['0'] => true
  | first :: _ => first != '0'

/-- A number literal: sign, whole part, places and exponent; all but the whole part are optional. -/
def isNumber (literal : List Char) : Bool :=
  let unsigned := if literal.head? = some '-' then literal.drop 1 else literal
  let tail := unsigned.dropWhile Char.isDigit
  let places := if tail.head? = some '.' then (tail.drop 1).takeWhile Char.isDigit else []
  let tail' := if tail.head? = some '.' then (tail.drop 1).dropWhile Char.isDigit else tail
  isWhole (unsigned.takeWhile Char.isDigit) &&
    (tail.head? != some '.' || !places.isEmpty) &&
    match tail' with
    | [] => true
    | mark :: exponent =>
      let sign := exponent.head?
      let digits := if sign = some '+' ∨ sign = some '-' then exponent.drop 1 else exponent
      (mark == 'e' || mark == 'E') && !digits.isEmpty && digits.all Char.isDigit

/-- A number at the start of a text. -/
def readNumber (chars : List Char) : Option (Value × List Char) :=
  let literal := chars.takeWhile isNumberChar
  if isNumber literal then some (.number (String.ofList literal), chars.dropWhile isNumberChar)
  else none

/-! ## Strings -/

/-- The value of a hexadecimal digit. -/
def hexDigit? (c : Char) : Option Nat :=
  if '0' ≤ c ∧ c ≤ '9' then some (c.toNat - 48)
  else if 'a' ≤ c ∧ c ≤ 'f' then some (c.toNat - 87)
  else if 'A' ≤ c ∧ c ≤ 'F' then some (c.toNat - 55)
  else none

/-- The value of hexadecimal digits. -/
def hexValue? (digits : List Char) : Option Nat :=
  digits.foldlM (fun value c => (hexDigit? c).map (16 * value + ·)) 0

/-- The code point of a one-letter escape. -/
def escaped? (c : Char) : Option Nat :=
  match c with
  | '"' => some 0x22
  | '\\' => some 0x5C
  | '/' => some 0x2F
  | 'b' => some 0x08
  | 'f' => some 0x0C
  | 'n' => some 0x0A
  | 'r' => some 0x0D
  | 't' => some 0x09
  | _ => none

/-- The code points of a string up to its closing quote. An escape may give half of a surrogate
pair. -/
def readCodes : List Char → Option (List Nat × List Char)
  | [] => none
  | '"' :: rest => some ([], rest)
  | '\\' :: 'u' :: a :: b :: c :: d :: rest => do
    let code ← hexValue? [a, b, c, d]
    let (codes, rest) ← readCodes rest
    return (code :: codes, rest)
  | '\\' :: c :: rest => do
    let code ← escaped? c
    let (codes, rest) ← readCodes rest
    return (code :: codes, rest)
  | c :: rest =>
    if c.toNat < 0x20 then none
    else do
      let (codes, rest) ← readCodes rest
      return (c.toNat :: codes, rest)

/-- The first half of a surrogate pair. -/
def isHighSurrogate (code : Nat) : Bool := 0xD800 ≤ code && code < 0xDC00

/-- The second half of a surrogate pair. -/
def isLowSurrogate (code : Nat) : Bool := 0xDC00 ≤ code && code < 0xE000

/-- The characters of code points, with surrogate pairs joined. A half alone is no character. -/
def charsOfCodes? : List Nat → Option (List Char)
  | [] => some []
  | [code] =>
    if isHighSurrogate code || isLowSurrogate code then none else some [Char.ofNat code]
  | code :: next :: rest =>
    if isHighSurrogate code then
      if isLowSurrogate next then
        (charsOfCodes? rest).map
          (Char.ofNat (0x10000 + 0x400 * (code - 0xD800) + (next - 0xDC00)) :: ·)
      else none
    else if isLowSurrogate code then none
    else (charsOfCodes? (next :: rest)).map (Char.ofNat code :: ·)

/-- A string after its opening quote, and the text it denotes. -/
def readString (chars : List Char) : Option (Option String × List Char) :=
  (readCodes chars).map fun (codes, rest) => ((charsOfCodes? codes).map String.ofList, rest)

/-! ## Values -/

/-- A key with the colon after it. -/
def readKey (chars : List Char) : Option (Option String × List Char) :=
  match skipBlank chars with
  | '"' :: rest => do
    let (key, rest) ← readString rest
    match skipBlank rest with
    | ':' :: rest => some (key, rest)
    | _ => none
  | _ => none

mutual

/-- A value at the start of a text. Each level and each item uses one unit of the first argument. -/
def readValue : Nat → List Char → Option (Value × List Char)
  | 0, _ => none
  | fuel + 1, chars =>
    match skipBlank chars with
    | '"' :: rest => (readString rest).map fun (text, rest) => (.string text, rest)
    | '[' :: rest =>
      if (skipBlank rest).head? = some ']' then some (.array [], (skipBlank rest).drop 1)
      else (readItems fuel rest).map fun (items, rest) => (.array items, rest)
    | '{' :: rest =>
      if (skipBlank rest).head? = some '}' then some (.object [], (skipBlank rest).drop 1)
      else (readFields fuel rest).map fun (fields, rest) => (.object fields, rest)
    | 't' :: 'r' :: 'u' :: 'e' :: rest => some (.boolean true, rest)
    | 'f' :: 'a' :: 'l' :: 's' :: 'e' :: rest => some (.boolean false, rest)
    | 'n' :: 'u' :: 'l' :: 'l' :: rest => some (.null, rest)
    | rest => readNumber rest

/-- The items of an array up to its closing bracket. -/
def readItems : Nat → List Char → Option (List Value × List Char)
  | 0, _ => none
  | fuel + 1, chars => do
    let (item, rest) ← readValue fuel chars
    match skipBlank rest with
    | ',' :: rest => (readItems fuel rest).map fun (items, rest) => (item :: items, rest)
    | ']' :: rest => some ([item], rest)
    | _ => none

/-- The fields of an object up to its closing brace. -/
def readFields : Nat → List Char → Option (List (Option String × Value) × List Char)
  | 0, _ => none
  | fuel + 1, chars => do
    let (key, rest) ← readKey chars
    let (value, rest) ← readValue fuel rest
    match skipBlank rest with
    | ',' :: rest =>
      (readFields fuel rest).map fun (fields, rest) => ((key, value) :: fields, rest)
    | '}' :: rest => some ([(key, value)], rest)
    | _ => none

end

/-- The value that a text writes. -/
def parse (text : String) : Option Value :=
  match readValue (text.length + 1) text.toList with
  | some (value, rest) => if (skipBlank rest).isEmpty then some value else none
  | none => none

end ModuleAtlas.Json
