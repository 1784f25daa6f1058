import Purse.Decimal.Text
import Purse.Proofs.Id.Wallet

/-!
# Decimals and their texts

A decimal is read back from its text with every place of its scale. The reader appends the digits after
the point one by one as long as they fit; those of a decimal all do. The one thing that a text does
not keep is the sign of zero.

## Results

* `Decimal.read_chars`: the form that the characters of a decimal have.
* `Decimal.parse_text`: a decimal is read back from its text.
-/

namespace Purse

namespace Positional

theorem decimalDigit?_charOf :
    ∀ d < 10, decimalDigit? (charOf decimalDigits d) = some d := by decide

/-- Digits are none of the other characters of a decimal. -/
theorem charOf_ne : ∀ d < 10, charOf decimalDigits d ≠ '.' ∧ charOf decimalDigits d ≠ '_' ∧
    charOf decimalDigits d ≠ '-' ∧ charOf decimalDigits d ≠ '+' := by
  decide

theorem lt_of_mem_numeral {n d : Nat} (hMem : d ∈ numeral n) : d < 10 := by
  induction n using Nat.strongRecOn with
  | _ n ih =>
    rw [numeral] at hMem
    split at hMem
    · next hSmall =>
      obtain rfl := List.mem_singleton.mp hMem
      exact hSmall
    · rcases List.mem_append.mp hMem with hFirst | hLast
      · exact ih (n / 10) (by omega) hFirst
      · obtain rfl := List.mem_singleton.mp hLast
        exact Nat.mod_lt n (by decide)

theorem numeral_ne_nil (n : Nat) : numeral n ≠ [] := by
  rw [numeral]
  split <;> simp

/-- Digits that are appended to a number make room for themselves. -/
theorem foldl_digits (base m width n : Nat) :
    (digits base width n).foldl (fun acc d => acc * base + d) m =
      m * Nat.pow base width + n % Nat.pow base width := by
  induction width generalizing n with
  | zero => simp [digits, Nat.mod_one]
  | succ width ih =>
    have hPow : Nat.pow base (width + 1) = base * Nat.pow base width := Nat.mul_comm _ _
    rw [digits, List.foldl_append, ih, hPow, Nat.mod_mul]
    show (m * Nat.pow base width + n / base % Nat.pow base width) * base + n % base = _
    rw [Nat.add_mul, Nat.mul_assoc, Nat.mul_comm (Nat.pow base width) base,
      Nat.mul_comm (n / base % _) base]
    omega

end Positional

namespace Decimal

open Positional

variable {negative : Bool} {mantissa scale : Nat} {ds : List Nat} {rest : List Char}

/-- The decimal, without a sign if it is zero. -/
def plain (d : Decimal) : Decimal := { d with negative := d.negative && d.mantissa != 0 }

/-- The sign of zero makes no difference to the value. -/
theorem units_plain (d : Decimal) : d.plain.units = d.units := by
  unfold units alignedTo signed plain
  by_cases hZero : d.mantissa = 0
  · simp [hZero]
  · simp [hZero]

-- ---------------------------------------------------------------------------
-- The form of a text
-- ---------------------------------------------------------------------------

/-- A digit before the point is read as such, whatever has been seen. -/
theorem readWhole_digit {d : Nat} (hDigit : d < 10) (seen : Bool) (cs : List Char) :
    readWhole seen (charOf decimalDigits d :: cs) =
      (readWhole true cs).map fun read => (d :: read.1, read.2) := by
  obtain ⟨hPoint, hGap, -, -⟩ := charOf_ne d hDigit
  rw [readWhole]
  · rw [decimalDigit?_charOf d hDigit]
    cases readWhole true cs <;> rfl
  · exact hPoint
  · exact hGap

theorem readFraction_digit {d : Nat} (hDigit : d < 10) (seen : Bool) (cs : List Char) :
    readFraction seen (charOf decimalDigits d :: cs) =
      (readFraction true cs).map (Mark.digit d :: ·) := by
  obtain ⟨-, hGap, -, -⟩ := charOf_ne d hDigit
  rw [readFraction]
  · rw [decimalDigit?_charOf d hDigit]
    cases readFraction true cs <;> rfl
  · exact hGap

/-- Digits before the point are read one by one. -/
theorem readWhole_digits (hDigits : ∀ d ∈ ds, d < 10) (hSome : ds ≠ []) (seen : Bool) :
    readWhole seen (ds.map (charOf decimalDigits) ++ rest) =
      (readWhole true rest).map fun read => (ds ++ read.1, read.2) := by
  induction ds generalizing seen with
  | nil => exact absurd rfl hSome
  | cons d ds ih =>
    rw [List.map_cons, List.cons_append, readWhole_digit (hDigits d List.mem_cons_self)]
    cases ds with
    | nil => rfl
    | cons e ds =>
      rw [ih (fun x hMem => hDigits x (List.mem_cons_of_mem d hMem)) (List.cons_ne_nil e ds) true,
        Option.map_map]
      rfl

theorem readFraction_digits (hDigits : ∀ d ∈ ds, d < 10) :
    readFraction true (ds.map (charOf decimalDigits)) = some (ds.map Mark.digit) := by
  induction ds with
  | nil => rfl
  | cons d ds ih =>
    rw [List.map_cons, readFraction_digit (hDigits d List.mem_cons_self),
      ih fun x hMem => hDigits x (List.mem_cons_of_mem d hMem)]
    rfl

/-- The sign of a text is told by its first character. -/
theorem read_sign {cs : List Char} (hFirst : ∀ c ∈ cs.head?, c ≠ '-' ∧ c ≠ '+') (negative : Bool) :
    Numeral.read ((if negative then ['-'] else []) ++ cs) =
      (readWhole false cs).map fun read => ⟨negative, read.1, read.2⟩ := by
  cases negative with
  | true => rfl
  | false =>
    rw [if_neg Bool.false_ne_true, List.nil_append]
    cases cs with
    | nil => rfl
    | cons c cs =>
      obtain ⟨hMinus, hPlus⟩ := hFirst c rfl
      simp [Numeral.read, hMinus, hPlus]

/-- The form that the characters of a decimal have. -/
theorem read_chars (d : Decimal) :
    Numeral.read d.chars = some ⟨d.negative, numeral (d.mantissa / Nat.pow 10 d.scale),
      (digits 10 d.scale (d.mantissa % Nat.pow 10 d.scale)).map Mark.digit⟩ := by
  have hWhole : ∀ x ∈ numeral (d.mantissa / Nat.pow 10 d.scale), x < 10 :=
    fun x hMem => lt_of_mem_numeral hMem
  have hFraction : ∀ x ∈ digits 10 d.scale (d.mantissa % Nat.pow 10 d.scale), x < 10 :=
    fun x hMem => lt_of_mem_digits (by decide) hMem
  unfold chars
  simp only
  rw [List.append_assoc, read_sign]
  · unfold decimalText
    rw [readWhole_digits hWhole (numeral_ne_nil _)]
    split
    · next hNone =>
      rw [hNone]
      simp [readWhole, digits]
    · -- behind the point come the digits of the scale
      rw [readWhole, decimalField, readFraction_digits hFraction]
      simp
  · -- the first character is a digit
    intro c hFirst
    obtain ⟨x, xs, hNumeral⟩ := List.exists_cons_of_ne_nil (numeral_ne_nil _)
    rw [hNumeral] at hWhole
    rw [decimalText, hNumeral] at hFirst
    obtain rfl := Option.some.inj hFirst
    exact (charOf_ne x (hWhole x List.mem_cons_self)).2.2

-- ---------------------------------------------------------------------------
-- The number that is read
-- ---------------------------------------------------------------------------

theorem le_foldl (m : Nat) (ds : List Nat) : m ≤ ds.foldl (fun acc d => acc * 10 + d) m := by
  induction ds generalizing m with
  | nil => exact Nat.le_refl m
  | cons d ds ih =>
    have hNext := ih (m * 10 + d)
    show m ≤ ds.foldl _ (m * 10 + d)
    omega

/-- Digits for which there is room are all appended. -/
theorem append?_digits (hScale : scale + ds.length ≤ maxScale)
    (hRoom : ds.foldl (fun acc d => acc * 10 + d) mantissa < capacity) :
    append? mantissa scale (ds.map Mark.digit) =
      some (ds.foldl (fun acc d => acc * 10 + d) mantissa, scale + ds.length) := by
  induction ds generalizing mantissa scale with
  | nil => rfl
  | cons d ds ih =>
    rw [List.length_cons] at hScale
    have hNext := Nat.lt_of_le_of_lt (le_foldl (mantissa * 10 + d) ds) hRoom
    rw [List.map_cons, append?, if_pos ⟨by omega, hNext⟩, ih (by omega) hRoom]
    show some (_, scale + 1 + ds.length) = some (_, scale + (ds.length + 1))
    rw [Nat.add_assoc, Nat.add_comm 1]
    rfl

/-- A decimal is read back from its text, but for the sign of zero. -/
theorem parse_text (d : Decimal) : parse? d.text = some d.plain := by
  -- what stands before the point and behind it is the mantissa
  have hMantissa : (digits 10 d.scale (d.mantissa % Nat.pow 10 d.scale)).foldl
      (fun acc x => acc * 10 + x) (d.mantissa / Nat.pow 10 d.scale) = d.mantissa := by
    rw [foldl_digits, Nat.mod_mod, Nat.mul_comm]
    exact Nat.div_add_mod d.mantissa (Nat.pow 10 d.scale)
  have hWhole : d.mantissa / Nat.pow 10 d.scale < capacity :=
    Nat.lt_of_le_of_lt (Nat.div_le_self _ _) d.mantissa_lt
  have hAppended : append? (d.mantissa / Nat.pow 10 d.scale) 0
      ((digits 10 d.scale (d.mantissa % Nat.pow 10 d.scale)).map Mark.digit) =
        some (d.mantissa, d.scale) := by
    rw [append?_digits, hMantissa, length_digits, Nat.zero_add]
    · rw [length_digits, Nat.zero_add]
      exact d.scale_le
    · rw [hMantissa]
      exact d.mantissa_lt
  unfold parse? read?
  rw [text, String.toList_ofList, read_chars, Option.bind_some]
  unfold Numeral.toDecimal?
  simp only [value_numeral]
  rw [if_neg (Nat.not_le.mpr hWhole), hAppended]
  show ofParts? _ _ _ = _
  rw [ofParts?, dif_pos ⟨d.mantissa_lt, d.scale_le⟩]
  rfl

end Decimal

end Purse
