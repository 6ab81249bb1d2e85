/-!
# Decoding bytes that may be no text

Well-formed UTF-8 sequences are read as their characters. Where a sequence is cut short or a byte
cannot start one, the bytes that could have been the beginning of a character are read together as one
replacement character. ASCII characters therefore stay where they are in any content.
-/

namespace ModuleAtlas.Text

/-- The bounds of the bytes that follow a lead byte in a well-formed sequence. They leave out longer
forms of short characters, surrogates, and what lies beyond the last code point. -/
def followers? (lead : UInt8) : Option (List (UInt8 × UInt8)) :=
  let any : UInt8 × UInt8 := (0x80, 0xBF)
  if lead < 0x80 then some []
  else if 0xC2 ≤ lead ∧ lead < 0xE0 then some [any]
  else if lead = 0xE0 then some [(0xA0, 0xBF), any]
  else if lead = 0xED then some [(0x80, 0x9F), any]
  else if 0xE1 ≤ lead ∧ lead < 0xF0 then some [any, any]
  else if lead = 0xF0 then some [(0x90, 0xBF), any, any]
  else if 0xF1 ≤ lead ∧ lead < 0xF4 then some [any, any, any]
  else if lead = 0xF4 then some [(0x80, 0x8F), any, any]
  else none

/-- The bytes at the start of a list, as far as they lie within the bounds. -/
def withinBounds : List (UInt8 × UInt8) → List UInt8 → List UInt8
  | (low, high) :: more, byte :: rest =>
    if low ≤ byte ∧ byte ≤ high then byte :: withinBounds more rest else []
  | _, _ => []

/-- The number that the payload of a lead byte is counted from, by the number of bytes after it. -/
def leadBase : Nat → Nat
  | 0 => 0
  | 1 => 0xC0
  | 2 => 0xE0
  | _ => 0xF0

/-- The character of a lead byte and the bytes after it. -/
def joinedChar (lead : UInt8) (after : List UInt8) : Char :=
  .ofNat (after.foldl (fun code byte => 64 * code + (byte.toNat - 0x80))
    (lead.toNat - leadBase after.length))

/-- The character that a lead byte and the bytes after it are read as, and the number of bytes after
the lead byte that are read with it. -/
def decodeChar (lead : UInt8) (rest : List UInt8) : Char × Nat :=
  match followers? lead with
  | some bounds =>
    let after := withinBounds bounds rest
    (if after.length = bounds.length then joinedChar lead after else '\uFFFD', after.length)
  | none => ('\uFFFD', 0)

/-- The characters of bytes, of which the first `done` belong to a character before. -/
def replacingChars : Nat → List UInt8 → List Char
  | _, [] => []
  | done + 1, _ :: rest => replacingChars done rest
  | 0, lead :: rest =>
    let (c, size) := decodeChar lead rest
    c :: replacingChars size rest

/-- The text of bytes. -/
def ofBytes (bytes : ByteArray) : String :=
  (String.fromUTF8? bytes).getD (String.ofList (replacingChars 0 bytes.toList))

end ModuleAtlas.Text
