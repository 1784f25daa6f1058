import Purse.Proofs.Decimal.Sum
import Purse.Remote.Numeric

/-!
# Balances in a database

A number in a database stands for a balance when it has the same exact value, at a scale that a decimal
can have (`Numeric.Counts`). The two need not have one scale: a decimal sum passes over a zero, and a
database's does not.

## Results

* `Counts.add`: sums of balances are counted by the sums of the numbers, whatever their size.
* `Counts.exists_toDecimal?`: what counts the value of a decimal goes out as a decimal of that value.
-/

namespace Purse.Remote.Numeric

open Decimal (maxScale Representable pow_pos pow_add)

variable {a b n : Numeric} {x y : Int}

/-- A number has an exact value, counted in the smallest step of a decimal. -/
structure Counts (n : Numeric) (units : Int) : Prop where
  scale_le : n.scale ≤ maxScale
  units_eq : n.unscaled * Nat.pow 10 (maxScale - n.scale) = units

/-- A decimal comes into the database as it is. -/
theorem counts_ofDecimal (d : Decimal) : (ofDecimal d).Counts d.units := by
  unfold ofDecimal
  split
  · next hZero =>
    rw [Decimal.isZero_iff_units] at hZero
    rw [hZero]
    exact ⟨Nat.zero_le _, Int.zero_mul _⟩
  · exact ⟨d.scale_le, rfl⟩

namespace Counts

/-- Written at a larger scale, a number counts the same value. -/
theorem alignedTo {scale : Nat} (hCounts : n.Counts x) (hLower : n.scale ≤ scale)
    (hUpper : scale ≤ maxScale) : n.alignedTo scale * Nat.pow 10 (maxScale - scale) = x := by
  have hSplit : maxScale - n.scale = (scale - n.scale) + (maxScale - scale) := by omega
  rw [← hCounts.units_eq, hSplit, pow_add, Int.natCast_mul, ← Int.mul_assoc]
  rfl

theorem add (hA : a.Counts x) (hB : b.Counts y) : (a.add b).Counts (x + y) := by
  have hScale : max a.scale b.scale ≤ maxScale := Nat.max_le.mpr ⟨hA.scale_le, hB.scale_le⟩
  refine ⟨hScale, ?_⟩
  rw [← hA.alignedTo (Nat.le_max_left _ _) hScale, ← hB.alignedTo (Nat.le_max_right _ _) hScale,
    ← Int.add_mul]
  rfl

theorem isBelowZero_eq (hCounts : n.Counts x) : n.isBelowZero = decide (x < 0) := by
  have hPow : (0 : Int) < Nat.pow 10 (maxScale - n.scale) := Int.natCast_pos.mpr (pow_pos _)
  rw [← hCounts.units_eq]
  refine decide_eq_decide.mpr ⟨fun hBelow => Int.mul_neg_of_neg_of_pos hBelow hPow, fun hBelow => ?_⟩
  by_contra hNot
  exact absurd (Int.mul_nonneg (Int.not_lt.mp hNot) (Int.le_of_lt hPow)) (Int.not_le.mpr hBelow)

/-- A number that counts the value of a decimal goes out as a decimal of that value. -/
theorem exists_toDecimal? (hCounts : n.Counts x) (hValue : Representable x) :
    ∃ d, n.toDecimal? = some d ∧ d.units = x := by
  unfold toDecimal?
  by_cases hZero : n.unscaled = 0
  · rw [if_pos hZero]
    refine ⟨Decimal.zero, rfl, ?_⟩
    rw [← hCounts.units_eq, hZero, Int.zero_mul]
    decide
  · rw [if_neg hZero]
    obtain ⟨hScale, rfl⟩ := hCounts
    exact Decimal.exists_fit? hScale hValue

end Counts

end Purse.Remote.Numeric
