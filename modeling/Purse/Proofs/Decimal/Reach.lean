import Purse.Proofs.Decimal.Monotone

/-!
# Which sums there are

A sum gives up places until it fits, and there is none when it has not one place left and is still
too long. That depends on the exact value alone and not on the scales at which the operands are
written: there is no sum where the exact value is half a step or more above the largest whole number
(`Decimal.OutOfReach`). And where there is a sum, it is below zero exactly if the exact value is: a
sum that is rounded was too long with one place more, and so it keeps nearly all of its digits.

## Definitions

* `Decimal.OutOfReach`: an exact value too far from zero for any decimal.

## Results

* `le_roundedQuotient_iff`: which numbers are rounded to an even number at least.
* `Decimal.add?_eq_none_iff`: there is no sum if and only if the exact value is out of reach.
* `Decimal.isBelowZero_add?_iff`: a sum is below zero if and only if the exact value is.
-/

namespace Purse

/-- A number is rounded to `c` or more from half a step below `c` on, as `c` is even and so takes
the half. -/
theorem le_roundedQuotient_iff {c n step : Nat} (hStep : 0 < step) (hEven : c % 2 = 0)
    (hPos : 0 < c) : c ≤ roundedQuotient n step ↔ (2 * c - 1) * step ≤ 2 * n := by
  obtain ⟨b, rfl⟩ : ∃ b, c = b + 1 := ⟨c - 1, by omega⟩
  have hDivision : step * (n / step) + n % step = n := Nat.div_add_mod n step
  have hRest : n % step < step := Nat.mod_lt n hStep
  have hTwice : (2 * (b + 1) - 1) * step = 2 * (step * b) + step := by
    have hOdd : 2 * (b + 1) - 1 = 2 * b + 1 := by omega
    rw [hOdd]
    ring
  rw [hTwice]
  unfold roundedQuotient
  simp only
  -- the quotient itself is `c` or more, or is the odd number below, or is less than that
  rcases Nat.lt_trichotomy (n / step) b with hLess | hSame | hMore
  · have hTimes : step * (n / step) + step ≤ step * b := Nat.mul_le_mul_left step hLess
    split <;> omega
  · rw [hSame] at hDivision ⊢
    split <;> omega
  · have hTimes : step * b + step ≤ step * (n / step) := Nat.mul_le_mul_left step hMore
    split <;> omega

namespace Decimal

variable {a b d : Decimal} {negative : Bool} {n scale places : Nat}

/-- An exact value that would be rounded past the largest whole number there is a decimal of. -/
def OutOfReach (units : Int) : Prop :=
  (2 * capacity - 1) * Nat.pow 10 maxScale ≤ 2 * units.natAbs

instance (units : Int) : Decidable (OutOfReach units) := inferInstanceAs (Decidable (_ ≤ _))

/-- A number is too long at some places from half a step below the capacity on. -/
theorem capacity_le_roundOff_iff :
    capacity ≤ roundOff n places ↔ (2 * capacity - 1) * Nat.pow 10 places ≤ 2 * n :=
  le_roundedQuotient_iff (pow_pos places) (by decide) (by decide)

/-- A number that is too long with many places given up is so with fewer. -/
theorem capacity_le_roundOff_of_le {fewer : Nat} (hFewer : fewer ≤ places)
    (hLong : capacity ≤ roundOff n places) : capacity ≤ roundOff n fewer := by
  rw [capacity_le_roundOff_iff] at hLong ⊢
  have hPow : Nat.pow 10 fewer ≤ Nat.pow 10 places := Nat.pow_le_pow_right (by decide) hFewer
  exact (Nat.mul_le_mul_left _ hPow).trans hLong

/-- Nothing is fitted of a number if it is too long with every place given up. -/
theorem fit?_eq_none_iff (hScale : scale ≤ maxScale) :
    fit? negative n scale = none ↔ capacity ≤ roundOff n scale := by
  unfold fit?
  rw [List.findSome?_eq_none_iff]
  constructor
  · intro hNone
    have hLast := hNone scale (by simp)
    exact ofParts?_eq_none (by omega) hLast
  · intro hLong places hPlaces
    rw [List.mem_range] at hPlaces
    have hLong' : capacity ≤ roundOff n places := capacity_le_roundOff_of_le (by omega) hLong
    unfold ofParts?
    rw [dif_neg]
    omega

/-- The value of a decimal is within reach. -/
theorem not_outOfReach_units (d : Decimal) : ¬ OutOfReach d.units := by
  have hMantissa := d.mantissa_lt
  have hPlaces : Nat.pow 10 (maxScale - d.scale) ≤ Nat.pow 10 maxScale :=
    Nat.pow_le_pow_right (by decide) (Nat.sub_le _ _)
  have hPow := pow_pos maxScale
  unfold OutOfReach
  rw [natAbs_units]
  have hLess : 2 * (d.mantissa * Nat.pow 10 (maxScale - d.scale)) ≤
      2 * (d.mantissa * Nat.pow 10 maxScale) :=
    Nat.mul_le_mul_left 2 (Nat.mul_le_mul_left _ hPlaces)
  have hTwice : 2 * (d.mantissa * Nat.pow 10 maxScale) = 2 * d.mantissa * Nat.pow 10 maxScale :=
    (Nat.mul_assoc 2 _ _).symm
  have hShort : 2 * d.mantissa * Nat.pow 10 maxScale < (2 * capacity - 1) * Nat.pow 10 maxScale :=
    Nat.mul_lt_mul_of_pos_right (by omega) hPow
  omega

/-- A value is out of reach at whichever scale it is counted. -/
theorem outOfReach_iff {sum : Int} (hScale : scale ≤ maxScale) :
    OutOfReach (sum * Nat.pow 10 (maxScale - scale)) ↔ capacity ≤ roundOff sum.natAbs scale := by
  rw [capacity_le_roundOff_iff]
  unfold OutOfReach
  have hSplit : Nat.pow 10 maxScale = Nat.pow 10 scale * Nat.pow 10 (maxScale - scale) := by
    rw [← pow_add]
    congr 1
    omega
  rw [Int.natAbs_mul, Int.natAbs_natCast, hSplit, ← Nat.mul_assoc, ← Nat.mul_assoc]
  exact Nat.mul_le_mul_right_iff (pow_pos _)

/-- There is no sum if and only if the exact value is out of reach. -/
theorem add?_eq_none_iff : add? a b = none ↔ OutOfReach (a.units + b.units) := by
  unfold add?
  split
  · next hZero =>
    rw [isZero_iff_units] at hZero
    have hReach := b.not_outOfReach_units
    simpa [hZero] using hReach
  · split
    · next hZero =>
      rw [isZero_iff_units] at hZero
      have hReach := a.not_outOfReach_units
      simpa [hZero] using hReach
    · have hScale : max a.scale b.scale ≤ maxScale := Nat.max_le.mpr ⟨a.scale_le, b.scale_le⟩
      rw [units_add, outOfReach_iff hScale]
      exact fit?_eq_none_iff hScale

/-- There is a sum if one of the operands is not above zero and the other not below. -/
theorem not_outOfReach_add (hA : 0 ≤ a.units) (hB : b.units ≤ 0) :
    ¬ OutOfReach (a.units + b.units) := by
  have hReachA := a.not_outOfReach_units
  have hReachB := b.not_outOfReach_units
  unfold OutOfReach at *
  generalize (2 * capacity - 1) * Nat.pow 10 maxScale = bound at *
  omega

/-! ## Signs -/

/-- What is fitted of a number other than zero is not rounded to zero. -/
theorem mantissa_pos_of_fit (hScale : scale ≤ maxScale) (hFit : fit? negative n scale = some d)
    (hPos : 0 < n) : 0 < d.mantissa := by
  obtain ⟨places, -, -, hMantissa, -, hFewest⟩ := fit?_eq_some hScale hFit
  rw [hMantissa]
  cases places with
  | zero =>
    have hWhole : roundOff (n * Nat.pow 10 0) 0 = n := roundOff_mul n 0
    rw [Nat.mul_one n] at hWhole
    omega
  | succ fewer =>
    -- with one place less it was too long, so all its digits but one are left
    have hLong := capacity_le_roundOff_succ (hFewest fewer (Nat.lt_succ_self fewer))
    have hCapacity : 0 < capacity := by decide
    omega

/-- A sum is below zero if and only if the exact value is. -/
theorem isBelowZero_add?_iff (hAdd : add? a b = some d) :
    d.isBelowZero = true ↔ a.units + b.units < 0 := by
  constructor
  · intro hBelow
    by_contra hNot
    have hAbove := isBelowZero_add? hAdd (by omega)
    simp [hBelow] at hAbove
  · intro hBelow
    suffices hUnits : d.units < 0 by simpa [isBelowZero] using hUnits
    obtain hExact | ⟨scale, hScale, sum, hSum, hFit⟩ := add?_cases hAdd
    · omega
    · have hPow : (0 : Int) < Nat.pow 10 (maxScale - scale) := Int.natCast_pos.mpr (pow_pos _)
      have hNegative : sum < 0 := by
        by_contra hNot
        have hMul := Int.mul_nonneg (Int.not_lt.mp hNot) (Int.le_of_lt hPow)
        omega
      have hSign := sign_of_fit hScale hFit
      simp only [hNegative, decide_true, if_true] at hSign
      have hMantissa := mantissa_pos_of_fit hScale hFit (by omega)
      have hAbs : 0 < d.units.natAbs := by
        rw [natAbs_units]
        exact Nat.mul_pos hMantissa (pow_pos _)
      omega

end Decimal

end Purse
