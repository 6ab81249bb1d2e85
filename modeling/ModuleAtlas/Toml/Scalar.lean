import ModuleAtlas.Toml.Value

/-!
# Numbers, dates and times

The literals that stand for one value without quotes or brackets. Digits may be grouped by single
underscores; integers have 64 bits; dates and times have to exist in the calendar.
-/

namespace ModuleAtlas.Toml

/-! ## Integers -/

/-- Digits in a base, with single underscores between them. -/
def isGrouped (isDigit : Char → Bool) : List Char → Bool
  | [] => false
  | [c] => isDigit c
  | c :: '_' :: rest => isDigit c && isGrouped isDigit rest
  | c :: rest => isDigit c && isGrouped isDigit rest

/-- The value of a digit in a base up to sixteen. -/
def digitIn? (base : Nat) (c : Char) : Option Nat :=
  let value :=
    if '0' ≤ c ∧ c ≤ '9' then c.toNat - 48
    else if 'a' ≤ c ∧ c ≤ 'f' then c.toNat - 87
    else if 'A' ≤ c ∧ c ≤ 'F' then c.toNat - 55
    else base
  if value < base then some value else none

/-- The value of digits in a base; underscores do not count. -/
def valueIn (base : Nat) (digits : List Char) : Nat :=
  (digits.filterMap (digitIn? base)).foldl (fun value d => base * value + d) 0

/-- Grouped decimal digits without a superfluous zero in front. -/
def isDecimal (digits : List Char) : Bool :=
  isGrouped Char.isDigit digits && (digits.head? != some '0' || digits == ['0'])

/-- The characters after a sign, and whether the sign was a minus. -/
def unsigned : List Char → Bool × List Char
  | '-' :: rest => (true, rest)
  | '+' :: rest => (false, rest)
  | rest => (false, rest)

/-- Grouped digits with a base mark in front; there is no sign. -/
def basedInteger? (base : Nat) (digits : List Char) : Option Int :=
  if isGrouped (fun c => (digitIn? base c).isSome) digits then some (valueIn base digits) else none

/-- The value of an integer literal of any size. -/
def wholeNumber? (literal : List Char) : Option Int :=
  match literal with
  | '0' :: 'x' :: digits => basedInteger? 16 digits
  | '0' :: 'o' :: digits => basedInteger? 8 digits
  | '0' :: 'b' :: digits => basedInteger? 2 digits
  | _ =>
    let (negative, digits) := unsigned literal
    if isDecimal digits then
      some (if negative then - (valueIn 10 digits : Int) else valueIn 10 digits)
    else none

/-- The value of an integer literal; it fits into 64 bits. -/
def integer? (literal : List Char) : Option Int :=
  (wholeNumber? literal).filter fun n => decide (-Nat.pow 2 63 ≤ n ∧ n < Nat.pow 2 63)

/-! ## Floating-point numbers -/

/-- The parts of a number with places or an exponent: whole digits, places, and the exponent with its
sign. -/
def floatParts? (digits : List Char) : Option (List Char × List Char × List Char) :=
  let isPart (c : Char) : Bool := c.isDigit || c == '_'
  let whole := digits.takeWhile isPart
  let rest := digits.dropWhile isPart
  let pointed := rest.head? == some '.'
  let places := if pointed then (rest.drop 1).takeWhile isPart else []
  let tail := if pointed then (rest.drop 1).dropWhile isPart else rest
  let exponentOk :=
    match tail with
    | [] => pointed
    | mark :: exponent =>
      (mark == 'e' || mark == 'E') && isGrouped Char.isDigit (unsigned exponent).2
  if isDecimal whole && (!pointed || isGrouped Char.isDigit places) && exponentOk then
    some (whole, places, tail.drop 1)
  else none

/-- Is `digits · 10 ^ exponent` rounded beyond the largest finite number of 64 bits? -/
def overflows (digits : Nat) (exponent : Int) : Bool :=
  let size : Int := (toString digits).length
  if digits = 0 ∨ exponent + size < 300 then false
  else if 400 < exponent + size then true
  else
    let limit := Nat.pow 2 1024 - Nat.pow 2 970
    if 0 ≤ exponent then limit ≤ digits * Nat.pow 10 exponent.toNat
    else limit * Nat.pow 10 (-exponent).toNat ≤ digits

/-- A floating-point literal. A positive one has to be finite. -/
def isFloat (literal : List Char) : Bool :=
  let (negative, digits) := unsigned literal
  if digits = ['i', 'n', 'f'] ∨ digits = ['n', 'a', 'n'] then true
  else
    match floatParts? digits with
    | none => false
    | some (whole, places, exponent) =>
      let (down, size) := unsigned exponent
      let shift : Int := if down then - (valueIn 10 size : Int) else valueIn 10 size
      let count : Nat := (places.filter Char.isDigit).length
      negative || !overflows (valueIn 10 (whole ++ places)) (shift - count)

/-! ## Dates and times -/

/-- Days of a month. -/
def daysIn (year month : Nat) : Nat :=
  if month = 2 then if year % 4 = 0 ∧ (year % 100 ≠ 0 ∨ year % 400 = 0) then 29 else 28
  else if month = 4 ∨ month = 6 ∨ month = 9 ∨ month = 11 then 30 else 31

/-- A number of exactly so many digits, within bounds. -/
def isNumberIn (size low high : Nat) (digits : List Char) : Bool :=
  digits.length == size && digits.all Char.isDigit && low ≤ valueIn 10 digits &&
    valueIn 10 digits ≤ high

/-- A date such as `1979-05-27`. -/
def isDate (chars : List Char) : Bool :=
  let year := chars.take 4
  let month := (chars.drop 5).take 2
  let day := chars.drop 8
  chars[4]? == some '-' && chars[7]? == some '-' && isNumberIn 4 0 9999 year &&
    isNumberIn 2 1 12 month && isNumberIn 2 1 (daysIn (valueIn 10 year) (valueIn 10 month)) day

/-- A time of day such as `07:32:00.5`. A minute may have a leap second. -/
def isTime (chars : List Char) : Bool :=
  let fraction := chars.drop 8
  chars[2]? == some ':' && chars[5]? == some ':' && isNumberIn 2 0 23 (chars.take 2) &&
    isNumberIn 2 0 59 ((chars.drop 3).take 2) && isNumberIn 2 0 60 ((chars.drop 6).take 2) &&
    (fraction.isEmpty ||
      fraction.head? == some '.' && fraction.length ≠ 1 && (fraction.drop 1).all Char.isDigit)

/-- The offset of a time zone. -/
def isOffset (chars : List Char) : Bool :=
  chars == ['Z'] || chars == ['z'] ||
    (chars.head? == some '+' || chars.head? == some '-') && chars[3]? == some ':' &&
      isNumberIn 2 0 23 ((chars.drop 1).take 2) && isNumberIn 2 0 59 (chars.drop 4)

/-- A time of day with an optional offset. -/
def isZonedTime (chars : List Char) : Bool :=
  let isClock (c : Char) : Bool := c.isDigit || c == ':' || c == '.'
  let offset := chars.dropWhile isClock
  isTime (chars.takeWhile isClock) && (offset.isEmpty || isOffset offset)

/-- A date, a time, or both with `T` between them. -/
def isMoment (chars : List Char) : Bool :=
  isDate chars || isTime chars ||
    isDate (chars.take 10) && (chars[10]? == some 'T' || chars[10]? == some 't') &&
      isZonedTime (chars.drop 11)

/-! ## Scalars in a text -/

/-- A character that may stand in a literal. -/
def isLiteralChar (c : Char) : Bool :=
  c.isAlphanum || c == '_' || c == '+' || c == '-' || c == '.' || c == ':'

/-- The value of a literal that stands alone. -/
def scalar? (literal : List Char) : Option Value :=
  if literal = ['t', 'r', 'u', 'e'] then some (.boolean true)
  else if literal = ['f', 'a', 'l', 's', 'e'] then some (.boolean false)
  else if isMoment literal then some (.moment (String.ofList literal))
  else if isFloat literal then some (.float (String.ofList literal))
  else (integer? literal).map .integer

/-- A literal at the start of a text. One blank may stand between a date and a time. -/
def readScalar (chars : List Char) : Option (Value × List Char) :=
  let literal := chars.takeWhile isLiteralChar
  let rest := chars.dropWhile isLiteralChar
  let time := (rest.drop 1).takeWhile isLiteralChar
  if isDate literal && rest.head? == some ' ' && isZonedTime time then
    some (.moment (String.ofList (literal ++ ' ' :: time)), (rest.drop 1).dropWhile isLiteralChar)
  else (scalar? literal).map fun value => (value, rest)

end ModuleAtlas.Toml
