import Purse.Proofs.Decimal.Sum
import Purse.Proofs.Decimal.Text

/-!
# Zeros with a sign

The sign of zero is not kept when a decimal is read in the plain form, so what is read is plain: either it
is not zero, or it has no sign. In the exponent form a number below zero may be divided by ten so often
that none of its digits is left within the places there are. Its sign stays, and this is the one way in
which a zero with a sign is read.

## Definitions

* `Decimal.Vanishes`: a text of a number below zero, all of whose digits are cut off.
* `Decimal.signedZero`: what is read from it.

## Results

* `Decimal.plain_of_read?`: what is read in the plain form is plain.
* `Decimal.parseScientific?_signed_iff`: texts that are read as a decimal that is not plain.
-/

namespace Purse

namespace Decimal

variable {d base : Decimal} {text : String} {cs : List Char}

/-- A decimal that is not plain is a zero with a sign. -/
theorem plain_ne_self_iff : d.plain ≠ d ↔ d.negative = true ∧ d.mantissa = 0 := by
  obtain ⟨negative, mantissa, scale, hMantissa, hScale⟩ := d
  unfold plain
  cases negative with
  | false => simp
  | true => simp

theorem plain_plain (d : Decimal) : d.plain.plain = d.plain := by
  by_contra hSigned
  obtain ⟨hNegative, hZero⟩ := plain_ne_self_iff.mp hSigned
  have hMantissa : d.mantissa = 0 := hZero
  simp [plain, hMantissa] at hNegative

/-- What is read in the plain form is plain. -/
theorem plain_of_read? (hRead : read? cs = some d) : d.plain = d := by
  by_contra hSigned
  obtain ⟨hNegative, hZero⟩ := plain_ne_self_iff.mp hSigned
  obtain ⟨numeral, -, hNumeral⟩ := Option.bind_eq_some_iff.mp hRead
  unfold Numeral.toDecimal? at hNumeral
  simp only at hNumeral
  split at hNumeral
  · cases hNumeral
  · obtain ⟨⟨mantissa, scale⟩, -, hParts⟩ := Option.bind_eq_some_iff.mp hNumeral
    obtain ⟨-, hSign, hMantissa, -⟩ := ofParts?_eq_some hParts
    rw [hNegative, ← hMantissa, hZero] at hSign
    simp at hSign

theorem parseScientific?_text (d : Decimal) : parseScientific? d.text = some d.plain := by
  unfold parseScientific?
  rw [parse_text]
  rfl

-- ---------------------------------------------------------------------------
-- Digits that are cut off
-- ---------------------------------------------------------------------------

/-- Nothing is left of a number of which less than a half is kept. -/
theorem roundHalfUp_eq_zero_iff {n places : Nat} :
    roundHalfUp n places = 0 ↔ 2 * n < Nat.pow 10 places := by
  unfold roundHalfUp
  cases places with
  | zero =>
    rw [if_pos rfl]
    show n = 0 ↔ 2 * n < 1
    omega
  | succ fewer =>
    have hPow : Nat.pow 10 (fewer + 1) = 10 * Nat.pow 10 fewer := Nat.mul_comm _ _
    have hStep : 0 < Nat.pow 10 fewer := Nat.pow_pos (by decide)
    have hFewer : fewer + 1 - 1 = fewer := rfl
    rw [if_neg (Nat.succ_ne_zero fewer), hFewer]
    simp only [hPow]
    have hKept : n / (10 * Nat.pow 10 fewer) = n / Nat.pow 10 fewer / 10 := by
      rw [Nat.mul_comm, Nat.div_div_eq_div_mul]
    have hFive : n / Nat.pow 10 fewer < 5 ↔ n < 5 * Nat.pow 10 fewer := Nat.div_lt_iff_lt_mul hStep
    rw [hKept]
    generalize n / Nat.pow 10 fewer = kept at *
    split <;> omega

/-- The text, in the exponent form, of a number below zero of which no digit is left within the places
there are. -/
def Vanishes (text : String) : Prop :=
  parse? text = none ∧ ∃ (base : Decimal) (mark : Char) (cs : List Char) (places : Nat),
    read? (text.toList.takeWhile (!opensExponent ·)) = some base ∧
    text.toList.dropWhile (!opensExponent ·) = mark :: '-' :: cs ∧
    readExponent? cs = some places ∧ places ≤ maxScale ∧ base.negative = true ∧
    2 * base.mantissa < Nat.pow 10 (base.scale + places - maxScale)

/-- Zero with a sign, and with as many places as there are. -/
def signedZero : Decimal := ⟨true, 0, maxScale, zero.mantissa_lt, Nat.le_refl _⟩

theorem shiftDown?_signed (hBase : base.plain = base) {places : Nat}
    (hShift : shiftDown? base places = some d) (hSigned : d.plain ≠ d) :
    d = signedZero ∧ places ≤ maxScale ∧ base.negative = true ∧
      2 * base.mantissa < Nat.pow 10 (base.scale + places - maxScale) := by
  obtain ⟨hNegative, hZero⟩ := plain_ne_self_iff.mp hSigned
  unfold shiftDown? at hShift
  split at hShift
  · cases hShift
  · next hPlaces =>
    split at hShift
    · obtain ⟨-, hSign, hMantissa, -⟩ := ofParts?_eq_some hShift
      exact absurd hBase (plain_ne_self_iff.mpr ⟨hSign ▸ hNegative, hMantissa ▸ hZero⟩)
    · obtain ⟨-, hSign, hMantissa, hScale⟩ := ofParts?_eq_some hShift
      refine ⟨?_, Nat.not_lt.mp hPlaces, hSign ▸ hNegative,
        roundHalfUp_eq_zero_iff.mp (hMantissa ▸ hZero)⟩
      clear hShift hSigned
      obtain ⟨negative, mantissa, scale, hRoom, hPlaces'⟩ := d
      simp only at hNegative hZero hScale
      subst hNegative hZero hScale
      rfl

theorem shiftUp?_plain (hBase : base.plain = base) {places : Nat}
    (hShift : shiftUp? base places = some d) : d.plain = d := by
  have hTimes : ∀ fewer, base.mantissa * Nat.pow 10 fewer = 0 → base.mantissa = 0 := by
    intro fewer hZero
    exact (Nat.mul_eq_zero.mp hZero).resolve_right (Nat.pow_pos (by decide)).ne'
  by_contra hSigned
  obtain ⟨hNegative, hZero⟩ := plain_ne_self_iff.mp hSigned
  unfold shiftUp? at hShift
  split at hShift
  · obtain ⟨-, hSign, hMantissa, -⟩ := ofParts?_eq_some hShift
    exact plain_ne_self_iff.mpr ⟨hSign ▸ hNegative, hMantissa ▸ hZero⟩ hBase
  split at hShift
  · cases hShift
  · obtain ⟨-, hSign, hMantissa, -⟩ := ofParts?_eq_some hShift
    exact plain_ne_self_iff.mpr ⟨hSign ▸ hNegative, hTimes _ (hMantissa ▸ hZero)⟩ hBase

/-- A decimal that is read and is not plain is what is left of a number that vanishes. -/
theorem vanishes_of_signed (hRead : parseScientific? text = some d) (hSigned : d.plain ≠ d) :
    Vanishes text ∧ d = signedZero := by
  unfold parseScientific? at hRead
  cases hPlain : parse? text with
  | some e =>
    rw [hPlain] at hRead
    obtain rfl : e = d := Option.some.inj hRead
    exact absurd (plain_of_read? hPlain) hSigned
  | none =>
    rw [hPlain] at hRead
    change readScientific? text.toList = some d at hRead
    unfold readScientific? at hRead
    obtain ⟨base, hBase, hRead⟩ := Option.bind_eq_some_iff.mp hRead
    have hBasePlain := plain_of_read? hBase
    split at hRead
    · cases hRead
    · next mark cs hMark =>
      obtain ⟨places, hPlaces, hShift⟩ := Option.bind_eq_some_iff.mp hRead
      obtain ⟨hZero, hMost, hNegative, hSmall⟩ := shiftDown?_signed hBasePlain hShift hSigned
      exact ⟨⟨hPlain, base, mark, cs, places, hBase, hMark, hPlaces, hMost, hNegative, hSmall⟩, hZero⟩
    · obtain ⟨places, -, hShift⟩ := Option.bind_eq_some_iff.mp hRead
      exact absurd (shiftUp?_plain hBasePlain hShift) hSigned

theorem parseScientific?_of_vanishes (hVanishes : Vanishes text) :
    parseScientific? text = some signedZero := by
  obtain ⟨hPlain, base, mark, cs, places, hBase, hMark, hPlaces, hMost, hNegative, hSmall⟩ := hVanishes
  have hBeyond : ¬ base.scale + places ≤ maxScale := by
    intro hWithin
    rw [Nat.sub_eq_zero_of_le hWithin] at hSmall
    have hZero : base.mantissa = 0 := by
      change 2 * base.mantissa < 1 at hSmall
      omega
    exact plain_ne_self_iff.mpr ⟨hNegative, hZero⟩ (plain_of_read? hBase)
  unfold parseScientific?
  rw [hPlain]
  show readScientific? text.toList = some signedZero
  unfold readScientific?
  rw [hBase, Option.bind_eq_bind, Option.bind_some, hMark]
  simp only [hPlaces, Option.bind_eq_bind, Option.bind_some]
  unfold shiftDown?
  rw [if_neg (Nat.not_lt.mpr hMost), if_neg hBeyond, roundHalfUp_eq_zero_iff.mpr hSmall, hNegative]
  rfl

/-- The texts that are read as a decimal that is not plain are those of numbers that vanish. -/
theorem parseScientific?_signed_iff :
    (∃ d, parseScientific? text = some d ∧ d.plain ≠ d) ↔ Vanishes text := by
  constructor
  · rintro ⟨d, hRead, hSigned⟩
    exact (vanishes_of_signed hRead hSigned).1
  · intro hVanishes
    exact ⟨signedZero, parseScientific?_of_vanishes hVanishes, by decide⟩

end Decimal

end Purse
