import Mathlib.Tactic.Ring
import Mathlib.Tactic.Linarith
import Purse.Decimal.Sum

/-!
# Which sums are exact

A sum gives up as few places as it takes to fit, so it is exact as soon as there is any decimal with
the exact value (`Decimal.exact_add?_iff`). A sum that is not exact has the sign of the exact value
all the same.

## Results

* `Decimal.fit?_eq_some`: how many places `fit?` gives up.
* `Decimal.exact_add?_iff`: a sum is exact if and only if the exact value is that of a decimal.
* `Decimal.exists_add?`: there is a sum, and it is exact, where it fits at the larger scale.
* `Decimal.isBelowZero_add?`: only a sum whose exact value is below zero is below zero.
-/

namespace Purse

theorem roundedQuotient_mul {step : Nat} (hStep : 0 < step) (n : Nat) :
    roundedQuotient (n * step) step = n := by
  unfold roundedQuotient
  rw [Nat.mul_mod_left, Nat.mul_div_cancel _ hStep]
  simp only
  rw [if_neg]
  omega

namespace Decimal

/-- Whether there is a decimal of an exact value, counted in the smallest step. -/
def Representable (units : Int) : Prop := ∃ d : Decimal, d.units = units

variable {a b d : Decimal} {negative : Bool} {magnitude scale : Nat}

theorem pow_pos (n : Nat) : 0 < Nat.pow 10 n := Nat.pow_pos (by decide)

theorem pow_add (m n : Nat) : Nat.pow 10 (m + n) = Nat.pow 10 m * Nat.pow 10 n :=
  Nat.pow_add 10 m n

/-- The exact value does not depend on the scale at which it is counted. -/
theorem units_eq_alignedTo {s : Nat} (hLower : d.scale ≤ s) (hUpper : s ≤ maxScale) :
    d.units = d.alignedTo s * Nat.pow 10 (maxScale - s) := by
  unfold units alignedTo
  have hSplit : maxScale - d.scale = (s - d.scale) + (maxScale - s) := by omega
  rw [hSplit, pow_add, Int.natCast_mul, Int.mul_assoc]

theorem ofParts?_eq_some (hParts : ofParts? negative magnitude scale = some d) :
    magnitude < capacity ∧ d.negative = negative ∧ d.mantissa = magnitude ∧ d.scale = scale := by
  unfold ofParts? at hParts
  split at hParts
  · next hFits =>
    obtain rfl := Option.some.inj hParts
    exact ⟨hFits.1, rfl, rfl, rfl⟩
  · simp at hParts

theorem ofParts?_eq_none (hScale : scale ≤ maxScale)
    (hParts : ofParts? negative magnitude scale = none) : capacity ≤ magnitude := by
  unfold ofParts? at hParts
  split at hParts
  · simp at hParts
  · next hLong => omega

/-- `fit?` gives up the fewest places with which the rounded magnitude fits. -/
theorem fit?_eq_some (hScale : scale ≤ maxScale) (hFit : fit? negative magnitude scale = some d) :
    ∃ places, places ≤ scale ∧ d.negative = negative ∧ d.mantissa = roundOff magnitude places ∧
      d.scale = scale - places ∧ ∀ fewer, fewer < places → capacity ≤ roundOff magnitude fewer := by
  unfold fit? at hFit
  obtain ⟨before, places, after, hRange, hParts, hLonger⟩ := List.findSome?_eq_some_iff.mp hFit
  obtain ⟨-, hNegative, hMantissa, hScale'⟩ := ofParts?_eq_some hParts
  have hPlaces : places ∈ List.range (scale + 1) := by
    rw [hRange]
    simp
  -- whatever is tried before is fewer, and did not fit
  have hOrder : (before ++ places :: after).Pairwise (· < ·) := by
    rw [← hRange]
    exact List.pairwise_lt_range
  rw [List.mem_range] at hPlaces
  refine ⟨places, by omega, hNegative, hMantissa, hScale', fun fewer hFewer => ?_⟩
  have hMem : fewer ∈ before ++ places :: after := by
    rw [← hRange, List.mem_range]
    omega
  have hAfter : ∀ more ∈ after, places < more :=
    (List.pairwise_cons.mp (List.pairwise_append.mp hOrder).2.1).1
  refine ofParts?_eq_none (by omega) (hLonger fewer ?_)
  rcases List.mem_append.mp hMem with hBefore | hRest
  · exact hBefore
  · rcases List.mem_cons.mp hRest with rfl | hLate
    · omega
    · have hLater := hAfter fewer hLate
      omega

/-! ## Exact sums -/

/-- A number of which some places are zeros is itself again with those places given up. -/
theorem roundOff_mul (n places : Nat) : roundOff (n * Nat.pow 10 places) places = n :=
  roundedQuotient_mul (pow_pos places) n

/-- The exact value of a decimal, by its magnitude. -/
theorem natAbs_units (d : Decimal) :
    d.units.natAbs = d.mantissa * Nat.pow 10 (maxScale - d.scale) := by
  unfold units alignedTo
  rw [Int.natAbs_mul, Int.natAbs_natCast]
  congr 1
  unfold signed
  split <;> simp

/-- If a number at a scale is the value of some decimal, it has as many zeros at its end as it takes
to fit into a mantissa. -/
theorem exists_places {n : Nat} (hScale : scale ≤ maxScale)
    (hValue : d.units.natAbs = n * Nat.pow 10 (maxScale - scale)) :
    ∃ places kept, places ≤ scale ∧ kept < capacity ∧ n = kept * Nat.pow 10 places := by
  rw [natAbs_units] at hValue
  have hBound := d.mantissa_lt
  have hPlaces := d.scale_le
  by_cases hShort : d.scale ≤ scale
  · -- places between the decimal's scale and the sum's are zeros
    refine ⟨scale - d.scale, d.mantissa, by omega, hBound, ?_⟩
    have hSplit : maxScale - d.scale = (scale - d.scale) + (maxScale - scale) := by omega
    rw [hSplit, pow_add, ← Nat.mul_assoc] at hValue
    exact (Nat.eq_of_mul_eq_mul_right (pow_pos _) hValue).symm
  · -- the decimal has more places, so the number is below its mantissa
    refine ⟨0, n, Nat.zero_le _, ?_, (Nat.mul_one n).symm⟩
    have hSplit : maxScale - scale = (d.scale - scale) + (maxScale - d.scale) := by omega
    rw [hSplit, pow_add, ← Nat.mul_assoc] at hValue
    have hMantissa := Nat.eq_of_mul_eq_mul_right (pow_pos _) hValue
    have hLe : n * 1 ≤ n * Nat.pow 10 (d.scale - scale) := Nat.mul_le_mul_left n (pow_pos _)
    omega

/-- Where there is a decimal of a value, one is found. -/
theorem fit?_isSome {n : Nat} (hScale : scale ≤ maxScale)
    (hValue : d.units.natAbs = n * Nat.pow 10 (maxScale - scale)) :
    ∃ d', fit? negative n scale = some d' := by
  obtain ⟨places, kept, hPlaces, hKept, rfl⟩ := exists_places hScale hValue
  suffices hSome : (fit? negative (kept * Nat.pow 10 places) scale).isSome = true from
    Option.isSome_iff_exists.mp hSome
  unfold fit?
  rw [List.findSome?_isSome_iff]
  refine ⟨places, List.mem_range.mpr (by omega), ?_⟩
  rw [roundOff_mul, ofParts?, dif_pos ⟨hKept, by omega⟩]
  rfl

/-- What is fitted is exact if there is any decimal of the value. -/
theorem natAbs_units_fit? {n : Nat} (hScale : scale ≤ maxScale)
    (hFit : fit? negative n scale = some d) {d' : Decimal}
    (hValue : d'.units.natAbs = n * Nat.pow 10 (maxScale - scale)) :
    d.units.natAbs = n * Nat.pow 10 (maxScale - scale) := by
  obtain ⟨places, hPlaces, -, hMantissa, hScale', hFewest⟩ := fit?_eq_some hScale hFit
  obtain ⟨enough, kept, hEnough, hKept, rfl⟩ := exists_places hScale hValue
  -- the zeros are enough to be given up, and the fewest places are
  have hLe : places ≤ enough := by
    by_contra hMore
    have hLong := hFewest enough (by omega)
    rw [roundOff_mul] at hLong
    omega
  have hZeros : kept * Nat.pow 10 enough =
      kept * Nat.pow 10 (enough - places) * Nat.pow 10 places := by
    rw [Nat.mul_assoc, ← pow_add]
    congr 2
    omega
  rw [natAbs_units, hMantissa, hScale', hZeros, roundOff_mul, Nat.mul_assoc _ (Nat.pow 10 places),
    ← pow_add]
  congr 2
  omega

/-- The exact sum of two decimals, counted at the larger of their scales. -/
theorem units_add (a b : Decimal) :
    a.units + b.units = (a.alignedTo (max a.scale b.scale) + b.alignedTo (max a.scale b.scale)) *
      Nat.pow 10 (maxScale - max a.scale b.scale) := by
  have hA := a.scale_le
  have hB := b.scale_le
  rw [units_eq_alignedTo (s := max a.scale b.scale) (by omega) (by omega),
    units_eq_alignedTo (d := b) (s := max a.scale b.scale) (by omega) (by omega), Int.add_mul]

/-- A decimal is below zero only if it has the sign. -/
theorem units_sign (d : Decimal) : if d.negative then d.units ≤ 0 else 0 ≤ d.units := by
  have hPow : (0 : Int) ≤ Nat.pow 10 (maxScale - d.scale) := Int.natCast_nonneg _
  have hMantissa : (0 : Int) ≤ d.mantissa := Int.natCast_nonneg _
  unfold units alignedTo signed
  split
  · rw [Int.neg_mul]
    have hMul := Int.mul_nonneg hMantissa hPow
    omega
  · exact Int.mul_nonneg hMantissa hPow

/-- The ways in which there is a sum: an operand is zero, or the exact sum was fitted. -/
theorem add?_cases (hAdd : add? a b = some d) :
    d.units = a.units + b.units ∨ ∃ scale, scale ≤ maxScale ∧ ∃ sum : Int,
      a.units + b.units = sum * Nat.pow 10 (maxScale - scale) ∧
      fit? (decide (sum < 0)) sum.natAbs scale = some d := by
  unfold add? at hAdd
  split at hAdd
  · next hZero =>
    obtain rfl := Option.some.inj hAdd
    rw [isZero_iff_units] at hZero
    exact Or.inl (by omega)
  · split at hAdd
    · next hZero =>
      obtain rfl := Option.some.inj hAdd
      rw [isZero_iff_units] at hZero
      exact Or.inl (by omega)
    · have hA := a.scale_le
      have hB := b.scale_le
      exact Or.inr ⟨max a.scale b.scale, by omega, _, units_add a b, hAdd⟩

/-- A sum whose exact value is not below zero is not below zero. -/
theorem isBelowZero_add? (hAdd : add? a b = some d) (hValue : 0 ≤ a.units + b.units) :
    d.isBelowZero = false := by
  suffices hUnits : 0 ≤ d.units by simpa [isBelowZero] using hUnits
  obtain hExact | ⟨scale, hScale, sum, hSum, hFit⟩ := add?_cases hAdd
  · omega
  · obtain ⟨places, -, hNegative, -⟩ := fit?_eq_some hScale hFit
    have hPow : (0 : Int) < Nat.pow 10 (maxScale - scale) := Int.natCast_pos.mpr (pow_pos _)
    -- the fitted decimal takes its sign from the exact sum
    have hNot : ¬ sum < 0 := by
      intro hBelow
      have hMul := Int.mul_neg_of_neg_of_pos hBelow hPow
      omega
    have hSign := d.units_sign
    rw [hNegative] at hSign
    simpa [hNot] using hSign

/-- Where there is a decimal of a value, one is found, and is exact. -/
theorem exists_fit? {sum : Int} (hScale : scale ≤ maxScale)
    (hValue : Representable (sum * Nat.pow 10 (maxScale - scale))) :
    ∃ d, fit? (decide (sum < 0)) sum.natAbs scale = some d ∧
      d.units = sum * Nat.pow 10 (maxScale - scale) := by
  obtain ⟨d', hValue⟩ := hValue
  have hAbs : d'.units.natAbs = sum.natAbs * Nat.pow 10 (maxScale - scale) := by
    rw [hValue, Int.natAbs_mul, Int.natAbs_natCast]
  obtain ⟨d, hFit⟩ : ∃ d, fit? (decide (sum < 0)) sum.natAbs scale = some d :=
    fit?_isSome hScale hAbs
  refine ⟨d, hFit, ?_⟩
  have hFitted := natAbs_units_fit? hScale hFit hAbs
  obtain ⟨places, -, hNegative, -⟩ := fit?_eq_some hScale hFit
  -- the magnitudes agree, and so do the signs
  rw [← Int.natAbs_natCast (Nat.pow 10 (maxScale - scale)), ← Int.natAbs_mul] at hFitted
  have hPow : (0 : Int) < Nat.pow 10 (maxScale - scale) := Int.natCast_pos.mpr (pow_pos _)
  have hSign := d.units_sign
  rw [hNegative] at hSign
  by_cases hBelow : sum < 0
  · have hMul := Int.mul_neg_of_neg_of_pos hBelow hPow
    simp only [hBelow, decide_true, if_true] at hSign
    omega
  · have hMul := Int.mul_nonneg (Int.not_lt.mp hBelow) (Int.le_of_lt hPow)
    simp only [hBelow, decide_false, Bool.false_eq_true, if_false] at hSign
    omega

/-- A sum is exact if and only if there is any decimal of the exact value. -/
theorem exact_add?_iff (hAdd : add? a b = some d) :
    d.units = a.units + b.units ↔ Representable (a.units + b.units) := by
  refine ⟨fun hExact => ⟨d, hExact⟩, fun hValue => ?_⟩
  obtain hExact | ⟨scale, hScale, sum, hSum, hFit⟩ := add?_cases hAdd
  · exact hExact
  · rw [hSum] at hValue ⊢
    obtain ⟨d', hFit', hExact⟩ := exists_fit? hScale hValue
    obtain rfl : d = d' := Option.some.inj (hFit.symm.trans hFit')
    exact hExact

/-! ## Sums that fit -/

/-- The exact sum of two decimals, written at the larger of their scales, fits a mantissa. -/
def SumFits (a b : Decimal) : Prop :=
  (a.alignedTo (max a.scale b.scale) + b.alignedTo (max a.scale b.scale)).natAbs < capacity

instance (a b : Decimal) : Decidable (SumFits a b) := inferInstanceAs (Decidable (_ < _))

/-- A sum that fits is the value of a decimal. -/
theorem SumFits.representable (hFits : SumFits a b) : Representable (a.units + b.units) := by
  have hA := a.scale_le
  have hB := b.scale_le
  rw [units_add]
  unfold SumFits at hFits
  generalize a.alignedTo _ + b.alignedTo _ = sum at hFits ⊢
  refine ⟨⟨decide (sum < 0), sum.natAbs, max a.scale b.scale, hFits, by omega⟩, ?_⟩
  have hSigned : (if decide (sum < 0) = true then -(sum.natAbs : Int) else sum.natAbs) = sum := by
    by_cases hBelow : sum < 0
    · simp only [hBelow, decide_true, if_true]
      omega
    · simp only [hBelow, decide_false, Bool.false_eq_true, if_false]
      omega
  unfold units alignedTo signed
  rw [hSigned]

/-- There is a sum where it fits, and it is exact. -/
theorem exists_add? (hFits : SumFits a b) :
    ∃ d, add? a b = some d ∧ d.units = a.units + b.units := by
  have hValue := hFits.representable
  suffices hSome : ∃ d, add? a b = some d by
    obtain ⟨d, hAdd⟩ := hSome
    exact ⟨d, hAdd, (exact_add?_iff hAdd).mpr hValue⟩
  have hA := a.scale_le
  have hB := b.scale_le
  unfold add?
  split
  · exact ⟨b, rfl⟩
  · split
    · exact ⟨a, rfl⟩
    · rw [units_add] at hValue
      obtain ⟨d, hFit, -⟩ := exists_fit? (by omega) hValue
      exact ⟨d, hFit⟩

end Decimal

end Purse
