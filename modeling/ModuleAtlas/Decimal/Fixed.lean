import ModuleAtlas.Decimal.Binary

/-!
# A fixed number of decimal places

The text of a number with a given number of places after the point, rounded from the exact value.
-/

namespace ModuleAtlas.Decimal

/-- The digits of a natural number, filled with zeros in front to a least length. -/
def paddedDigits (least n : Nat) : String :=
  let digits := toString n
  String.ofList (List.replicate (least - digits.length) '0') ++ digits

/-- A number with `places` decimal places; a half goes to the even neighbour. The sign of a negative
number stays when its digits round to zero. -/
def fixed (places : Nat) : Binary → String
  | .notANumber => "NaN"
  | .infinite negative => if negative then "-inf" else "inf"
  | .finite negative significand exponent =>
    let scale := Nat.pow 10 places
    let units := roundHalfEven (significand * power 2 exponent * scale) (power 2 (-exponent))
    let sign := if negative then "-" else ""
    sign ++ toString (units / scale) ++ "." ++ paddedDigits places (units % scale)

example : fixed 2 (.finite false 5 (-3)) = "0.62" := by decide
example : fixed 2 (.finite true 1 (-20)) = "-0.00" := by decide

end ModuleAtlas.Decimal
