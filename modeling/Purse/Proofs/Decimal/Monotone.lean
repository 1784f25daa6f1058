import Purse.Proofs.Decimal.Sum

/-!
# Sums rise

To add what is not below zero never makes a decimal smaller, be the sum rounded or not. A larger
number may have to give up more places than a smaller one, so it does not suffice that rounding to a
place is monotone: a number that has just become too long for its places must not be rounded to less
than the longest that still fitted. It is not, as the last digit of the capacity is a 6.

## Results

* `fit?_mono`: what is fitted of a larger number is larger.
* `units_le_add?`: a sum is not below an operand if the other operand is not below zero.
-/

namespace Purse

/-! ## Rounding to a place -/

/-- A rounded quotient is off by half a step at most. -/
theorem roundedQuotient_bounds {step : Nat} (hStep : 0 < step) (n : Nat) :
    2 * n ≤ 2 * (roundedQuotient n step * step) + step ∧
      2 * (roundedQuotient n step * step) ≤ 2 * n + step := by
  have hDivision : step * (n / step) + n % step = n := Nat.div_add_mod n step
  have hRest : n % step < step := Nat.mod_lt n hStep
  unfold roundedQuotient
  simp only
  split
  · -- rounded up, so at least half a step was left
    have hSplit : (n / step + 1) * step = step * (n / step) + step := by ring
    omega
  · have hSplit : n / step * step = step * (n / step) := Nat.mul_comm _ _
    omega

theorem roundedQuotient_mono {m n step : Nat} (hLe : m ≤ n) :
    roundedQuotient m step ≤ roundedQuotient n step := by
  have hQuotients : m / step ≤ n / step := Nat.div_le_div_right hLe
  have hM : step * (m / step) + m % step = m := Nat.div_add_mod m step
  have hN : step * (n / step) + n % step = n := Nat.div_add_mod n step
  unfold roundedQuotient
  simp only
  by_cases hSame : m / step = n / step
  · -- with one quotient, the larger number has the larger rest
    rw [hSame] at hM ⊢
    have hRests : m % step ≤ n % step := by omega
    split <;> split <;> omega
  · split <;> split <;> omega

namespace Decimal

variable {a b d x y : Decimal} {scale places m n : Nat}

theorem roundOff_mono (hLe : m ≤ n) (places : Nat) : roundOff m places ≤ roundOff n places :=
  roundedQuotient_mono hLe

/-- A number that is too long is not made shorter than the capacity by giving up another place. -/
theorem capacity_le_roundOff_succ (hLong : capacity ≤ roundOff n places) :
    capacity ≤ roundOff n (places + 1) * 10 := by
  have hSixth : capacity % 10 = 6 := by decide
  have hPow : 0 < Nat.pow 10 places := pow_pos places
  have hPow' : Nat.pow 10 (places + 1) = Nat.pow 10 places * 10 := rfl
  have hBefore := (roundedQuotient_bounds hPow n).2
  have hAfter := (roundedQuotient_bounds (pow_pos (places + 1)) n).1
  change 2 * (roundOff n places * _) ≤ _ at hBefore
  change _ ≤ 2 * (roundOff n (places + 1) * _) + _ at hAfter
  rw [hPow'] at hAfter
  generalize capacity = c at *
  generalize Nat.pow 10 places = step at *
  generalize roundOff n places = before at *
  generalize roundOff n (places + 1) = after at *
  by_contra hShort
  -- a multiple of ten below the capacity leaves six at least to it
  have hGap : after * 10 + 6 ≤ c := by omega
  have hTimes : (after * 10 + 6) * step ≤ before * step :=
    Nat.mul_le_mul_right step (hGap.trans hLong)
  have hSplit : (after * 10 + 6) * step = after * (step * 10) + 6 * step := by ring
  omega

/-- The exact value of what is fitted, by its rounded magnitude. -/
theorem natAbs_units_of_fit (hScale : scale ≤ maxScale) (hPlaces : places ≤ scale)
    (hMantissa : d.mantissa = roundOff n places) (hScale' : d.scale = scale - places) :
    d.units.natAbs = roundOff n places * Nat.pow 10 places * Nat.pow 10 (maxScale - scale) := by
  have hSplit : maxScale - (scale - places) = places + (maxScale - scale) := by omega
  rw [natAbs_units, hMantissa, hScale', hSplit, pow_add, Nat.mul_assoc]

/-- Of two numbers at one scale, the larger one is fitted to the larger decimal. -/
theorem fit?_mono {negative negative' : Bool} (hScale : scale ≤ maxScale) (hLe : m ≤ n)
    (hX : fit? negative m scale = some x) (hY : fit? negative' n scale = some y) :
    x.units.natAbs ≤ y.units.natAbs := by
  obtain ⟨p, hp, -, hMantissaX, hScaleX, hFewestX⟩ := fit?_eq_some hScale hX
  obtain ⟨q, hq, -, hMantissaY, hScaleY, hFewestY⟩ := fit?_eq_some hScale hY
  rw [natAbs_units_of_fit hScale hp hMantissaX hScaleX,
    natAbs_units_of_fit hScale hq hMantissaY hScaleY]
  refine Nat.mul_le_mul_right _ ?_
  have hFitsX : roundOff m p < capacity := hMantissaX ▸ x.mantissa_lt
  have hFitsY : roundOff n q < capacity := hMantissaY ▸ y.mantissa_lt
  have hMore : p ≤ q := by
    by_contra hFewer
    have hLong := hFewestX q (by omega)
    have hMono := roundOff_mono hLe q
    omega
  rcases Nat.eq_or_lt_of_le hMore with rfl | hLess
  · exact Nat.mul_le_mul_right _ (roundOff_mono hLe p)
  · -- the larger number was too long for one place less, and so is at least as long as any that fits
    obtain ⟨r, rfl⟩ : ∃ r, q = r + 1 := ⟨q - 1, by omega⟩
    have hLong := capacity_le_roundOff_succ (hFewestY r (Nat.lt_succ_self r))
    calc roundOff m p * Nat.pow 10 p
        ≤ capacity * Nat.pow 10 p := Nat.mul_le_mul_right _ hFitsX.le
      _ ≤ capacity * Nat.pow 10 r :=
        Nat.mul_le_mul_left _ (Nat.pow_le_pow_right (by decide) (by omega))
      _ ≤ roundOff n (r + 1) * 10 * Nat.pow 10 r := Nat.mul_le_mul_right _ hLong
      _ = roundOff n (r + 1) * Nat.pow 10 (r + 1) := by
        rw [Nat.mul_assoc, Nat.mul_comm 10]
        rfl

/-! ## Sums -/

theorem sign_of_fit {negative : Bool} (hScale : scale ≤ maxScale)
    (hFit : fit? negative n scale = some d) : if negative then d.units ≤ 0 else 0 ≤ d.units := by
  obtain ⟨places, -, hNegative, -⟩ := fit?_eq_some hScale hFit
  rw [← hNegative]
  exact d.units_sign

/-- What is fitted of a larger sum is larger. -/
theorem units_fit?_mono {less more : Int} (hScale : scale ≤ maxScale) (hLe : less ≤ more)
    (hX : fit? (decide (less < 0)) less.natAbs scale = some x)
    (hY : fit? (decide (more < 0)) more.natAbs scale = some y) : x.units ≤ y.units := by
  have hSignX := sign_of_fit hScale hX
  have hSignY := sign_of_fit hScale hY
  by_cases hLess : less < 0
  · by_cases hMore : more < 0
    · -- below zero, the smaller sum has the larger magnitude
      simp only [hLess, hMore, decide_true, if_true] at hSignX hSignY
      have hMono := fit?_mono hScale (m := more.natAbs) (n := less.natAbs) (by omega) hY hX
      omega
    · simp only [hLess, hMore, decide_true, decide_false, if_true, Bool.false_eq_true,
        if_false] at hSignX hSignY
      omega
  · have hMore : ¬ more < 0 := by omega
    simp only [hLess, hMore, decide_false, Bool.false_eq_true, if_false] at hSignX hSignY
    have hMono := fit?_mono hScale (m := less.natAbs) (n := more.natAbs) (by omega) hX hY
    omega

/-- To add what is not below zero makes no decimal smaller, be the sum rounded or not. -/
theorem units_le_add? (hAdd : add? a b = some d) (hNonneg : 0 ≤ b.units) : a.units ≤ d.units := by
  unfold add? at hAdd
  split at hAdd
  · next hZero =>
    obtain rfl := Option.some.inj hAdd
    rw [isZero_iff_units] at hZero
    omega
  · split at hAdd
    · obtain rfl := Option.some.inj hAdd
      exact le_rfl
    · simp only at hAdd
      have hScaleA := a.scale_le
      have hScaleB := b.scale_le
      have hLower : a.scale ≤ max a.scale b.scale := Nat.le_max_left _ _
      have hLower' : b.scale ≤ max a.scale b.scale := Nat.le_max_right _ _
      have hScale : max a.scale b.scale ≤ maxScale := Nat.max_le.mpr ⟨hScaleA, hScaleB⟩
      generalize max a.scale b.scale = scale at *
      have hA := units_eq_alignedTo hLower hScale
      have hB := units_eq_alignedTo hLower' hScale
      have hRise : 0 ≤ b.alignedTo scale := by
        rw [hB] at hNonneg
        exact nonneg_of_mul_nonneg_left hNonneg (Int.natCast_pos.mpr (pow_pos _))
      -- the operand, fitted at the scale of the sum, is itself again
      obtain ⟨a', hFit, hExact⟩ := exists_fit? hScale ⟨a, hA⟩
      rw [hA, ← hExact]
      exact units_fit?_mono hScale (by omega) hFit hAdd

end Decimal

end Purse
