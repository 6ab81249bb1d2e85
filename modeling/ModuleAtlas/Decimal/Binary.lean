/-!
# Binary floating-point numbers as exact values

A finite number is a sign, a natural number and a power of two. What is written in decimal is chosen
from this exact value by arithmetic on natural numbers.
-/

namespace ModuleAtlas.Decimal

/-- A floating-point number of 64 bits, taken apart. -/
inductive Binary where
  /-- `± significand · 2 ^ exponent` -/
  | finite (negative : Bool) (significand : Nat) (exponent : Int)
  | infinite (negative : Bool)
  | notANumber
  deriving DecidableEq, Repr

/-- The number that a pattern of 64 bits stands for. -/
def Binary.ofBits (bits : UInt64) : Binary :=
  let negative := bits.toNat / Nat.pow 2 63 = 1
  let field : Nat := bits.toNat / Nat.pow 2 52 % Nat.pow 2 11
  let fraction := bits.toNat % Nat.pow 2 52
  if field = 2047 then if fraction = 0 then .infinite negative else .notANumber
  else if field = 0 then .finite negative fraction (-1074)
  else .finite negative (Nat.pow 2 52 + fraction) ((field : Int) - 1075)

/-- The exact value of a number. -/
def Binary.ofFloat (x : Float) : Binary := .ofBits x.toBits

/-- A fraction `numerator / denominator` rounded to a natural number; a half goes to the even
neighbour. -/
def roundHalfEven (numerator denominator : Nat) : Nat :=
  let floor := numerator / denominator
  let rest := numerator % denominator
  if 2 * rest < denominator ∨ (2 * rest = denominator ∧ floor % 2 = 0) then floor else floor + 1

/-- `base ^ exponent` where the exponent is positive, and one elsewhere. -/
def power (base : Nat) (exponent : Int) : Nat := base.pow exponent.toNat

end ModuleAtlas.Decimal
