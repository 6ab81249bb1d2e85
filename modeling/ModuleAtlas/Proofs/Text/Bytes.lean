import Mathlib.Data.String.Basic

/-!
# The order of encoded texts

Texts are compared by code points. The encoding of characters in bytes keeps that order, so that the
least of some texts is also the least by its bytes (`bytes_lt_bytes_iff`).
-/

namespace ModuleAtlas.Text

/-- The bytes that encode a text. -/
def bytes (text : String) : List UInt8 := text.toUTF8.data.toList

theorem bytes_eq_flatMap (text : String) :
    bytes text = text.toList.flatMap String.utf8EncodeChar := by
  rw [bytes, String.toUTF8_eq_toByteArray, ← String.utf8Encode_toList, List.utf8Encode,
    List.data_toByteArray]

theorem val_le (c : Char) : c.val.toNat ≤ 0x10ffff := by
  have hvalid := c.valid
  simp only [UInt32.isValidChar, Nat.isValidChar] at hvalid
  omega

/-- The encoding of a lesser character comes first, whatever follows. -/
theorem encode_append_lt {c d : Char} (hlt : c < d) (s t : List UInt8) :
    String.utf8EncodeChar c ++ s < String.utf8EncodeChar d ++ t := by
  have hval : c.val.toNat < d.val.toNat := hlt
  have hmax := val_le d
  -- every payload of six bits is a remainder of the quotient before it
  have h12 : ∀ n : ℕ, n / 4096 = n / 64 / 64 := fun n => (Nat.div_div_eq_div_mul n 64 64).symm
  have h18 : ∀ n : ℕ, n / 262144 = n / 64 / 64 / 64 := by
    intro n
    rw [Nat.div_div_eq_div_mul, Nat.div_div_eq_div_mul]
  simp only [String.utf8EncodeChar, h12, h18]
  generalize c.val.toNat = v at hval
  generalize d.val.toNat = w at hval hmax
  split_ifs <;>
    simp only [List.cons_append, List.cons_lt_cons_iff, UInt8.lt_iff_toNat_lt, ← UInt8.toNat_inj,
      UInt8.toNat_ofNat'] <;>
    omega

theorem flatMap_encode_lt {s t : List Char} (hlt : s < t) :
    s.flatMap String.utf8EncodeChar < t.flatMap String.utf8EncodeChar := by
  induction hlt with
  | @nil d t =>
    rw [List.flatMap_nil, List.flatMap_cons]
    cases henc : String.utf8EncodeChar d with
    | nil => exact absurd henc String.utf8EncodeChar_ne_nil
    | cons byte bytes => exact List.nil_lt_cons byte _
  | rel hcd => exact encode_append_lt hcd _ _
  | cons _ ih => exact List.append_left_lt ih

/-- The order of texts is that of their bytes. -/
theorem bytes_lt_bytes_iff {a b : String} : bytes a < bytes b ↔ a < b := by
  have hmono : ∀ {a b : String}, a < b → bytes a < bytes b := by
    intro a b hlt
    rw [bytes_eq_flatMap, bytes_eq_flatMap]
    exact flatMap_encode_lt hlt
  refine ⟨fun hlt => ?_, hmono⟩
  rcases lt_trichotomy a b with h | rfl | h
  · exact h
  · exact absurd hlt (List.lt_irrefl _)
  · exact absurd hlt (List.lt_asymm (hmono h))

end ModuleAtlas.Text
