import ModuleAtlas.Decimal.Binary

/-!
# Shortest decimal digits

Among the decimal numbers that round to a binary one, those on the coarsest decimal grid have the
fewest digits. The nearest of them is chosen, and of two equally near ones the even one.
-/

namespace ModuleAtlas.Decimal

/-- Decimal digits read as `digits · 10 ^ exponent`. -/
structure Scientific where
  digits : Nat
  exponent : Int
  deriving DecidableEq, Repr

/-- The real numbers that round to a binary number, in units of `2 ^ (exponent - 2)`. The bounds
themselves round to it iff the significand is even. -/
structure Interval where
  low : Nat
  value : Nat
  high : Nat
  closed : Bool
  exponent : Int

/-- The interval of a positive number. Below a power of two the gap is half as wide. -/
def Interval.ofFinite (significand : Nat) (exponent : Int) : Interval where
  low := 4 * significand - (if significand = Nat.pow 2 52 ∧ exponent ≠ -1074 then 1 else 2)
  value := 4 * significand
  high := 4 * significand + 2
  closed := significand % 2 = 0
  exponent := exponent - 2

/-- The point of an interval that is nearest to its value, among the multiples of `10 ^ grid`. -/
def Interval.nearest? (i : Interval) (grid : Int) : Option Nat :=
  -- a multiple `d` and a bound `b` compare as `d * step` and `b * unit`
  let step := power 10 grid * power 2 (-i.exponent)
  let unit := power 2 i.exponent * power 10 (-grid)
  let holds (d : Nat) : Bool :=
    d ≠ 0 && (if i.closed then i.low * unit ≤ d * step && d * step ≤ i.high * unit
      else i.low * unit < d * step && d * step < i.high * unit)
  let down := i.value * unit / step
  let up := down + 1
  match holds down, holds up with
  | true, true => some (roundHalfEven (i.value * unit) step)
  | true, false => some down
  | false, true => some up
  | false, false => none

/-- The first point on ever finer grids. -/
def Interval.firstPoint (i : Interval) : Nat → Int → Scientific
  | 0, grid => ⟨0, grid⟩
  | more + 1, grid =>
    match i.nearest? grid with
    | some digits => ⟨digits, grid⟩
    | none => i.firstPoint more (grid - 1)

/-- The shortest digits of `significand · 2 ^ exponent`; zero has the digits `0`. The search starts
above the number, and seventeen digits always suffice. -/
def shortest (significand : Nat) (exponent : Int) : Scientific :=
  if significand = 0 then ⟨0, 0⟩
  else
    let top := ((Nat.log2 significand : Int) + 1 + exponent) * 1233 / 4096 + 1
    (Interval.ofFinite significand exponent).firstPoint 20 top

example : shortest 1 (-1074) = ⟨5, -324⟩ := by decide +kernel
example : shortest 0x1999999999999A (-56) = ⟨1, -1⟩ := by decide +kernel

end ModuleAtlas.Decimal
