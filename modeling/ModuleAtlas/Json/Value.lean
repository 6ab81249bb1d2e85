import ModuleAtlas.Decimal.Shortest

/-!
# JSON values

A number is kept as the literal that was written, so nothing is lost by reading it. The escapes of a
string may leave half of a surrogate pair alone; such a string is well formed but denotes no text.
-/

namespace ModuleAtlas.Json

/-- A JSON value. -/
inductive Value where
  | null
  | boolean (value : Bool)
  | number (literal : String)
  /-- a string, and the text it denotes, if any -/
  | string (text : Option String)
  | array (items : List Value)
  /-- the fields as written, repetitions included -/
  | object (fields : List (Option String × Value))
  deriving Repr, Inhabited

namespace Value

/-- The string of a text. -/
def text (text : String) : Value := .string (some text)

/-- The number of things. -/
def count (n : Nat) : Value := .number (toString n)

/-- The string of a text, or null where there is none. -/
def textOrNull (text : Option String) : Value := text.elim .null .text

/-- An array of strings. -/
def texts (texts : List String) : Value := .array (texts.map .text)

/-- An object with the given keys. -/
def record (fields : List (String × Value)) : Value :=
  .object (fields.map fun (key, value) => (some key, value))

end Value

/-- Shortest digits as a number literal: positional with at least one place after the point while the
point stays within sixteen digits after or five zeros before, and with a signed exponent elsewhere. -/
def scientificLiteral (s : Decimal.Scientific) : String :=
  let digits := toString s.digits
  let point : Int := digits.length + s.exponent
  if 0 ≤ s.exponent ∧ point ≤ 16 then
    digits ++ String.ofList (List.replicate s.exponent.toNat '0') ++ ".0"
  else if 0 < point ∧ point ≤ 16 then
    let chars := digits.toList
    String.ofList (chars.take point.toNat) ++ "." ++ String.ofList (chars.drop point.toNat)
  else if -5 < point ∧ point ≤ 0 then
    "0." ++ String.ofList (List.replicate (-point).toNat '0') ++ digits
  else
    let chars := digits.toList
    let places := if chars.length = 1 then "" else "." ++ String.ofList (chars.drop 1)
    let sign := if 0 < point then "+" else ""
    String.ofList (chars.take 1) ++ places ++ "e" ++ sign ++ toString (point - 1)

/-- The value of a floating-point number: its shortest literal, or null if it is not finite. -/
def Value.float (x : Float) : Value :=
  match Decimal.Binary.ofFloat x with
  | .finite negative significand exponent =>
    let sign := if negative then "-" else ""
    .number (sign ++ scientificLiteral (Decimal.shortest significand exponent))
  | _ => .null

example : scientificLiteral ⟨1, 16⟩ = "1e+16" := by decide
example : scientificLiteral ⟨1, 15⟩ = "1000000000000000.0" := by decide
example : scientificLiteral ⟨125, -2⟩ = "1.25" := by decide
example : scientificLiteral ⟨1, -5⟩ = "0.00001" := by decide
example : scientificLiteral ⟨15, -7⟩ = "1.5e-6" := by decide

end ModuleAtlas.Json
