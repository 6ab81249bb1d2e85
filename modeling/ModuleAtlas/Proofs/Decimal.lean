import Mathlib.Algebra.Order.Field.Power
import Mathlib.Tactic.GCongr
import Mathlib.Tactic.Linarith
import Mathlib.Tactic.NormNum
import Mathlib.Tactic.Ring
import ModuleAtlas.Decimal.Shortest

/-!
# The search for the shortest digits ends

The search starts on a decimal grid above the number and goes through twenty grids, each ten times as
fine as the one before. As soon as the distance between two points of the grid is less than half the
width of the interval, the point that follows the number lies in the interval
(`nearest?_isSome`). The factor `1233 / 4096` is so close to the logarithm of two that the last grid is
always that fine (`ten_zpow_le`), so a number other than zero has digits other than zero
(`digits_shortest_ne_zero`).
-/

namespace ModuleAtlas.Decimal

variable {i : Interval} {grid exponent : ℤ} {significand d : ℕ}

/-! ## Powers -/

/-- A power with a negative exponent is a quotient of two natural numbers. -/
theorem zpow_eq_div (base : ℕ) (hbase : base ≠ 0) (exponent : ℤ) :
    (base : ℚ) ^ exponent = power base exponent / power base (-exponent) := by
  have hne : (base : ℚ) ≠ 0 := Nat.cast_ne_zero.mpr hbase
  conv_lhs => rw [← Int.toNat_sub_toNat_neg exponent, zpow_sub₀ hne, zpow_natCast, zpow_natCast]
  rw [power, power, Nat.pow_eq, Nat.pow_eq, Nat.cast_pow, Nat.cast_pow]

theorem power_pos {base : ℕ} (hbase : 0 < base) (exponent : ℤ) : 0 < power base exponent :=
  Nat.pow_pos hbase

/-- Ten to the power of `1233` lies between neighbouring powers of two. -/
theorem ten_pow_bounds : 2 ^ 4095 ≤ 10 ^ 1233 ∧ 10 ^ 1233 ≤ 2 ^ 4096 := by decide +kernel

/-- The factor `1233 / 4096` takes exponents of two to exponents of ten. The error is less than one
binary place while the exponents are not too far below zero. -/
theorem ten_zpow_le {m : ℤ} (hm : -4096 ≤ m) : (10 : ℚ) ^ (m * 1233 / 4096) ≤ 2 ^ (m + 1) := by
  obtain ⟨hlow, hhigh⟩ := ten_pow_bounds
  have hlow : (2 : ℚ) ^ (4095 : ℤ) ≤ 10 ^ (1233 : ℤ) := by exact_mod_cast hlow
  have hhigh : (10 : ℚ) ^ (1233 : ℤ) ≤ 2 ^ (4096 : ℤ) := by exact_mod_cast hhigh
  have htwo : (1 : ℚ) ≤ 2 := by norm_num
  -- the powers with the factor `4096` in their exponents are compared
  have hpow : (10 : ℚ) ^ (1233 * m) ≤ 2 ^ (4096 * (m + 1)) := by
    rcases le_total 0 m with hpos | hneg
    · calc (10 : ℚ) ^ (1233 * m) = (10 ^ (1233 : ℤ)) ^ m := zpow_mul _ _ _
        _ ≤ (2 ^ (4096 : ℤ)) ^ m := zpow_le_zpow_left₀ hpos (by positivity) hhigh
        _ = 2 ^ (4096 * m) := (zpow_mul _ _ _).symm
        _ ≤ 2 ^ (4096 * (m + 1)) := zpow_le_zpow_right₀ htwo (by omega)
    · calc (10 : ℚ) ^ (1233 * m) = ((10 ^ (1233 : ℤ)) ^ (-m))⁻¹ := by
            rw [← zpow_mul, ← zpow_neg]; ring_nf
        _ ≤ ((2 ^ (4095 : ℤ)) ^ (-m))⁻¹ := by
            refine inv_anti₀ (by positivity) ?_
            exact zpow_le_zpow_left₀ (by omega) (by positivity) hlow
        _ = 2 ^ (4095 * m) := by rw [← zpow_mul, ← zpow_neg]; ring_nf
        _ ≤ 2 ^ (4096 * (m + 1)) := zpow_le_zpow_right₀ htwo (by omega)
  have hfloor : 4096 * (m * 1233 / 4096) ≤ 1233 * m := by omega
  have hall : ((10 : ℚ) ^ (m * 1233 / 4096)) ^ 4096 ≤ (2 ^ (m + 1)) ^ 4096 := by
    calc ((10 : ℚ) ^ (m * 1233 / 4096)) ^ 4096 = 10 ^ (4096 * (m * 1233 / 4096)) := by
          rw [← zpow_natCast, ← zpow_mul, mul_comm]; rfl
      _ ≤ 10 ^ (1233 * m) := zpow_le_zpow_right₀ (by norm_num) hfloor
      _ ≤ 2 ^ (4096 * (m + 1)) := hpow
      _ = (2 ^ (m + 1)) ^ 4096 := by rw [← zpow_natCast, ← zpow_mul, mul_comm]; rfl
  exact le_of_pow_le_pow_left₀ (by decide) (by positivity) hall

/-! ## Points of a grid -/

/-- The distance between two points of a grid. -/
def Interval.step (i : Interval) (grid : ℤ) : ℕ := power 10 grid * power 2 (-i.exponent)

/-- The unit of the bounds of an interval, on the same scale. -/
def Interval.unit (i : Interval) (grid : ℤ) : ℕ := power 2 i.exponent * power 10 (-grid)

/-- Is a point of a grid in the interval? -/
def Interval.holds (i : Interval) (grid : ℤ) (d : ℕ) : Bool :=
  d ≠ 0 && (if i.closed then
      i.low * i.unit grid ≤ d * i.step grid && d * i.step grid ≤ i.high * i.unit grid
    else i.low * i.unit grid < d * i.step grid && d * i.step grid < i.high * i.unit grid)

/-- The last point of a grid that is not above the value. -/
def Interval.down (i : Interval) (grid : ℤ) : ℕ := i.value * i.unit grid / i.step grid

theorem nearest?_eq (i : Interval) (grid : ℤ) : i.nearest? grid
    = match i.holds grid (i.down grid), i.holds grid (i.down grid + 1) with
      | true, true => some (roundHalfEven (i.value * i.unit grid) (i.step grid))
      | true, false => some (i.down grid)
      | false, true => some (i.down grid + 1)
      | false, false => none := rfl

theorem ne_zero_of_holds (h : i.holds grid d = true) : d ≠ 0 := by
  unfold Interval.holds at h
  simp only [ne_eq, decide_not, Bool.and_eq_true, Bool.not_eq_true', decide_eq_false_iff_not] at h
  exact h.1

/-- The point that is nearest to the value is not zero. -/
theorem ne_zero_of_nearest? (h : i.nearest? grid = some d) : d ≠ 0 := by
  rw [nearest?_eq] at h
  split at h
  · rename_i hdown _
    have hne := ne_zero_of_holds hdown
    obtain rfl := Option.some.inj h
    unfold roundHalfEven
    change (if _ then i.down grid else i.down grid + 1) ≠ 0
    split
    · exact hne
    · exact Nat.succ_ne_zero _
  · rename_i hdown _
    obtain rfl := Option.some.inj h
    exact ne_zero_of_holds hdown
  · obtain rfl := Option.some.inj h
    exact Nat.succ_ne_zero _
  · cases h

/-- On a fine grid the point that follows the value is in the interval. -/
theorem nearest?_isSome (hlow : i.low ≤ i.value) (hhigh : i.value + 2 ≤ i.high)
    (hfine : (10 : ℚ) ^ grid < 2 ^ (i.exponent + 1)) : (i.nearest? grid).isSome = true := by
  have hstep : i.step grid < 2 * i.unit grid := by
    have h10 := zpow_eq_div 10 (by decide) grid
    have h2 := zpow_eq_div 2 (by decide) i.exponent
    have hpos10 : (0 : ℚ) < power 10 (-grid) := by exact_mod_cast power_pos (by decide) _
    have hpos2 : (0 : ℚ) < power 2 (-i.exponent) := by exact_mod_cast power_pos (by decide) _
    rw [zpow_add_one₀ two_ne_zero] at hfine
    push_cast at h10 h2
    rw [h10, h2, div_mul_eq_mul_div, div_lt_div_iff₀ hpos10 hpos2] at hfine
    have hcast : ((i.step grid : ℕ) : ℚ) < ((2 * i.unit grid : ℕ) : ℚ) := by
      unfold Interval.step Interval.unit
      push_cast
      linarith
    exact_mod_cast hcast
  have hpos : 0 < i.step grid := Nat.mul_pos (power_pos (by decide) _) (power_pos (by decide) _)
  have hfloor := Nat.div_add_mod (i.value * i.unit grid) (i.step grid)
  have hmod := Nat.mod_lt (i.value * i.unit grid) hpos
  have habove : i.value * i.unit grid < (i.down grid + 1) * i.step grid := by
    unfold Interval.down
    rw [Nat.add_mul, Nat.mul_comm (_ / _)]
    omega
  have hbelow : (i.down grid + 1) * i.step grid < (i.value + 2) * i.unit grid := by
    have hle : i.down grid * i.step grid ≤ i.value * i.unit grid := Nat.div_mul_le_self _ _
    rw [Nat.add_mul, Nat.add_mul]
    omega
  have hlow' : i.low * i.unit grid ≤ i.value * i.unit grid := Nat.mul_le_mul_right _ hlow
  have hhigh' : (i.value + 2) * i.unit grid ≤ i.high * i.unit grid := Nat.mul_le_mul_right _ hhigh
  have hup : i.holds grid (i.down grid + 1) = true := by
    unfold Interval.holds
    split <;> simp <;> omega
  rw [nearest?_eq, hup]
  cases i.holds grid (i.down grid) <;> rfl

/-! ## The search -/

/-- A search that comes to a point gives digits other than zero. -/
theorem digits_firstPoint_ne_zero {more : ℕ} (hfound : ∃ k : ℕ, k < more ∧
    (i.nearest? (grid - k)).isSome = true) : (i.firstPoint more grid).digits ≠ 0 := by
  induction more generalizing grid with
  | zero =>
    obtain ⟨k, hk, -⟩ := hfound
    exact absurd hk (Nat.not_lt_zero k)
  | succ more ih =>
    rw [Interval.firstPoint]
    cases hnearest : i.nearest? grid with
    | some digits => exact ne_zero_of_nearest? hnearest
    | none =>
      refine ih ?_
      obtain ⟨k, hk, hsome⟩ := hfound
      cases k with
      | zero =>
        rw [Nat.cast_zero, sub_zero, hnearest] at hsome
        cases hsome
      | succ k =>
        refine ⟨k, by omega, ?_⟩
        rwa [show grid - 1 - (k : ℤ) = grid - ((k + 1 : ℕ) : ℤ) by push_cast; ring]

/-- The shortest digits of a number other than zero are not zero. -/
theorem digits_shortest_ne_zero (hne : significand ≠ 0) (hlt : significand < 2 ^ 53)
    (hexp : -1074 ≤ exponent) : (shortest significand exponent).digits ≠ 0 := by
  have hlog : significand.log2 < 53 := (Nat.log2_lt hne).mpr hlt
  rw [shortest, if_neg hne]
  refine digits_firstPoint_ne_zero ⟨19, by decide, nearest?_isSome ?_ ?_ ?_⟩
  · simp only [Interval.ofFinite]
    omega
  · exact le_rfl
  · set m : ℤ := (significand.log2 : ℤ) + 1 + exponent with hm
    have hten : (2 : ℚ) ^ (59 : ℤ) < 10 ^ (18 : ℤ) := by norm_num
    have hsplit : m * 1233 / 4096 + 1 - ((19 : ℕ) : ℤ) = m * 1233 / 4096 - 18 := by
      push_cast
      ring
    rw [hsplit, zpow_sub₀ (by norm_num), div_lt_iff₀ (by positivity)]
    calc (10 : ℚ) ^ (m * 1233 / 4096) ≤ 2 ^ (m + 1) := ten_zpow_le (by omega)
      _ ≤ 2 ^ ((Interval.ofFinite significand exponent).exponent + 1 + 59) := by
          refine zpow_le_zpow_right₀ (by norm_num) ?_
          simp only [Interval.ofFinite]
          omega
      _ = 2 ^ ((Interval.ofFinite significand exponent).exponent + 1) * 2 ^ (59 : ℤ) :=
          zpow_add₀ two_ne_zero _ _
      _ < 2 ^ ((Interval.ofFinite significand exponent).exponent + 1) * 10 ^ (18 : ℤ) := by
          gcongr

end ModuleAtlas.Decimal
