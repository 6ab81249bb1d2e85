/-!
# Averages

Averages are taken of counts, and averages of parts are combined by weight. The report has
floating-point averages; the laws of averages are those of exact quotients, so the type of averages
is a parameter.
-/

namespace ModuleAtlas

/-- A type of averages. -/
class Average (α : Type) where
  zero : α
  /-- a sum divided by a count that is not zero -/
  quotient : Nat → Nat → α
  /-- `(a * m + b * n) / total`, where the total weight is not zero -/
  combine : α → Nat → α → Nat → (total : Nat) → α

namespace Average

variable {α : Type} [Average α]

/-- The mean of counts with a sum; zero if nothing was counted. -/
def mean (sum count : Nat) : α := if count = 0 then zero else quotient sum count

/-- Two averages weighted by the counts they are taken over. -/
def weighted (a : α) (m : Nat) (b : α) (n : Nat) : α :=
  if m + n = 0 then zero else combine a m b n (m + n)

end Average

/-- Floating-point averages, with one rounding for each operation. -/
instance : Average Float where
  zero := 0
  quotient sum count := Float.ofNat sum / Float.ofNat count
  combine a m b n total := (a * Float.ofNat m + b * Float.ofNat n) / Float.ofNat total

end ModuleAtlas
