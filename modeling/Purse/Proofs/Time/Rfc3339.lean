import Purse.Proofs.Decimal.Text
import Purse.Proofs.Text.Blank
import Purse.Proofs.Time.Calendar
import Purse.Time.Rfc3339

/-!
# Timestamps and their texts

A timestamp is read back from its text. Each part of the text is read by the reader of its kind, and
leaves what comes behind it: numbers of a fixed width stop by themselves, and any other number stops at
the character that follows, which is no digit.

## Results

* `Rfc3339.number_digits`: a number, digit by digit.
* `Rfc3339.year_chars`, `Rfc3339.fraction_chars`: the parts of no fixed width.
* `Rfc3339.parse_text`: a timestamp is read back from its text.
-/

namespace Purse

namespace Positional

variable {ds : List Nat}

theorem mapM_decimalDigit? (hDigits : ∀ d ∈ ds, d < 10) :
    (ds.map (charOf decimalDigits)).mapM decimalDigit? = some ds := by
  induction ds with
  | nil => rfl
  | cons d ds ih =>
    obtain ⟨hFirst, hRest⟩ := List.forall_mem_cons.mp hDigits
    rw [List.map_cons, List.mapM_cons, decimalDigit?_charOf d hFirst, ih hRest]
    rfl

/-- A number is read from its digits. -/
theorem readDecimal?_digits (hDigits : ∀ d ∈ ds, d < 10) (hSome : ds ≠ []) :
    readDecimal? (ds.map (charOf decimalDigits)) = some (value 10 ds) := by
  unfold readDecimal?
  rw [mapM_decimalDigit? hDigits, List.isEmpty_eq_false_iff.mpr (by simpa using hSome)]
  rfl

end Positional

namespace Rfc3339

open Positional

variable {ds : List Nat} {rest : List Char} {c : Char} {n : Nat}

/-- What follows a number does not go on with a digit. -/
def Ends (rest : List Char) : Prop := ∀ c ∈ rest.head?, decimalDigit? c = none

theorem takeWhile_digits (hDigits : ∀ d ∈ ds, d < 10) (hEnds : Ends rest) :
    (ds.map (charOf decimalDigits) ++ rest).takeWhile (decimalDigit? · |>.isSome) =
      ds.map (charOf decimalDigits) := by
  have hAll : ∀ c ∈ ds.map (charOf decimalDigits), (decimalDigit? c).isSome = true := by
    intro c hMem
    obtain ⟨d, hDigit, rfl⟩ := List.mem_map.mp hMem
    rw [decimalDigit?_charOf d (hDigits d hDigit)]
    rfl
  have hNone : rest.takeWhile (decimalDigit? · |>.isSome) = [] := by
    cases rest with
    | nil => rfl
    | cons c rest => exact List.takeWhile_cons_of_neg (by rw [hEnds c rfl]; exact Bool.false_ne_true)
  rw [List.takeWhile_append_of_pos hAll, hNone, List.append_nil]

/-- A number is read as far as it goes, or as far as it may go. -/
theorem number_digits {most : Nat} (hDigits : ∀ d ∈ ds, d < 10) (hSome : ds ≠ [])
    (hMost : ds.length ≤ most) (hEnds : ds.length = most ∨ Ends rest) :
    number most (ds.map (charOf decimalDigits) ++ rest) = some (value 10 ds, rest) := by
  have hLength : (ds.map (charOf decimalDigits)).length = ds.length := List.length_map _
  have hTake : ((ds.map (charOf decimalDigits) ++ rest).take most).takeWhile
      (decimalDigit? · |>.isSome) = ds.map (charOf decimalDigits) := by
    rw [List.take_append, hLength, List.take_of_length_le (hLength.trans_le hMost)]
    refine takeWhile_digits hDigits ?_
    rcases hEnds with hFull | hEnds
    · rw [hFull, Nat.sub_self, List.take_zero]
      rintro c ⟨⟩
    · intro c hFirst
      cases hRoom : most - ds.length with
      | zero =>
        rw [hRoom] at hFirst
        cases hFirst
      | succ room =>
        rw [hRoom] at hFirst
        cases rest with
        | nil => cases hFirst
        | cons x rest => exact hEnds c hFirst
  unfold number
  simp only [hTake, readDecimal?_digits hDigits hSome, List.drop_left, Option.map_some]

theorem digits_ne_nil {width : Nat} (hWidth : width ≠ 0) (n : Nat) : digits 10 width n ≠ [] := by
  intro hNil
  exact hWidth ((length_digits 10 width n).symm.trans (congrArg List.length hNil))

theorem value_field {width : Nat} (hLess : n < 10 ^ width) : value 10 (digits 10 width n) = n := by
  rw [value_digits]
  exact Nat.mod_eq_of_lt hLess

/-- A number of a fixed width stops by itself. -/
theorem number_field {width : Nat} (hWidth : width ≠ 0) (hLess : n < 10 ^ width) (rest : List Char) :
    number width (decimalField width n ++ rest) = some (n, rest) := by
  have hDigits : ∀ d ∈ digits 10 width n, d < 10 := fun d hMem => lt_of_mem_digits (by decide) hMem
  have hLength := length_digits 10 width n
  unfold decimalField
  rw [number_digits hDigits (digits_ne_nil hWidth n) hLength.le (Or.inl hLength), value_field hLess]

theorem longNumber_digits (hDigits : ∀ d ∈ ds, d < 10) (hSome : ds ≠ []) (hEnds : Ends rest) :
    longNumber (ds.map (charOf decimalDigits) ++ rest) = some (value 10 ds, rest) := by
  refine number_digits hDigits hSome ?_ (Or.inr hEnds)
  rw [List.length_append, List.length_map]
  exact Nat.le_add_right _ _

-- ---------------------------------------------------------------------------
-- Parts
-- ---------------------------------------------------------------------------

/-- There are no blanks before a character that is none. -/
theorem skipBlanks_cons (hBlank : isBlank c = false) (cs : List Char) :
    skipBlanks (c :: cs) = c :: cs :=
  List.dropWhile_cons_of_neg (ne_true_of_eq_false hBlank)

theorem skipBlanks_digits (hSome : ds ≠ []) (rest : List Char) :
    skipBlanks (ds.map (charOf decimalDigits) ++ rest) = ds.map (charOf decimalDigits) ++ rest := by
  obtain ⟨d, ds, rfl⟩ := List.exists_cons_of_ne_nil hSome
  exact skipBlanks_cons (isBlank_charOf (by decide) d) _

theorem field_two (hLess : n < 100) (rest : List Char) :
    field (decimalField 2 n ++ rest) = some (n, rest) := by
  unfold field decimalField
  rw [skipBlanks_digits (digits_ne_nil (by decide) n)]
  exact number_field (by decide) hLess rest

theorem separator_self (hBlank : isBlank c = false) (rest : List Char) :
    separator c (c :: rest) = some ((), rest) := by
  unfold separator
  rw [skipBlanks_cons hBlank]
  exact if_pos rfl

/-- A year that begins with a digit has no sign. -/
theorem year_digits (hDigits : ∀ d ∈ ds, d < 10) (hSome : ds ≠ []) (rest : List Char) :
    year (ds.map (charOf decimalDigits) ++ rest) =
      (number 4 (ds.map (charOf decimalDigits) ++ rest)).map fun read => ((read.1 : Int), read.2) := by
  rw [year, skipBlanks_digits hSome]
  obtain ⟨d, ds, rfl⟩ := List.exists_cons_of_ne_nil hSome
  obtain ⟨-, -, hMinus, hPlus⟩ := charOf_ne d (hDigits d List.mem_cons_self)
  rw [List.map_cons, List.cons_append]
  split
  · next hSame => exact absurd (List.cons.inj hSame).1 hMinus
  · next hSame => exact absurd (List.cons.inj hSame).1 hPlus
  · rfl

/-- A year with a sign may have any number of digits. -/
theorem longNumber_chars (n : Nat) (hEnds : Ends rest) :
    longNumber ((if n < 10000 then decimalField 4 n else decimalText n) ++ rest) = some (n, rest) := by
  split
  · next hLess =>
    have hDigits : ∀ d ∈ digits 10 4 n, d < 10 := fun d hMem => lt_of_mem_digits (by decide) hMem
    unfold decimalField
    rw [longNumber_digits hDigits (digits_ne_nil (by decide) n) hEnds, value_field hLess]
  · have hDigits : ∀ d ∈ numeral n, d < 10 := fun d hMem => lt_of_mem_numeral hMem
    unfold decimalText
    rw [longNumber_digits hDigits (numeral_ne_nil n) hEnds, value_numeral]

/-- A year is read back, with a sign or without one. -/
theorem year_chars (y : Int) (hEnds : Ends rest) : year (yearChars y ++ rest) = some (y, rest) := by
  unfold yearChars
  simp only
  split
  · next hPlain =>
    have hLess : y.natAbs < 10000 := by omega
    have hDigits : ∀ d ∈ digits 10 4 y.natAbs, d < 10 := fun d hMem =>
      lt_of_mem_digits (by decide) hMem
    have hNumber : number 4 ((digits 10 4 y.natAbs).map (charOf decimalDigits) ++ rest) = _ :=
      number_field (by decide) hLess rest
    have hSame : (y.natAbs : Int) = y := Int.natAbs_of_nonneg hPlain.1
    rw [if_pos hLess, decimalField, year_digits hDigits (digits_ne_nil (by decide) _), hNumber,
      Option.map_some, hSame]
  · next hSigned =>
    by_cases hBelow : y < 0
    · have hSame : -(y.natAbs : Int) = y := by omega
      rw [if_pos hBelow, List.cons_append, year, skipBlanks_cons (by decide)]
      simp only [longNumber_chars _ hEnds, Option.map_some, hSame]
    · have hSame : (y.natAbs : Int) = y := by omega
      rw [if_neg hBelow, List.cons_append, year, skipBlanks_cons (by decide)]
      simp only [longNumber_chars _ hEnds, Option.map_some, hSame]

/-- Digits behind a point are read as so many places of a second. -/
theorem fraction_field (hEnds : Ends rest) {width : Nat} (hWidth : width ≠ 0) (hNine : width ≤ 9)
    (hLess : n < 10 ^ width) :
    fraction ('.' :: decimalField width n ++ rest) = some (n * Nat.pow 10 (9 - width), rest) := by
  have hDigits : ∀ d ∈ digits 10 width n, d < 10 := fun d hMem => lt_of_mem_digits (by decide) hMem
  have hLength : ((digits 10 width n).map (charOf decimalDigits)).length = width :=
    (List.length_map _).trans (length_digits 10 width n)
  unfold decimalField
  rw [List.cons_append, fraction]
  simp only [takeWhile_digits hDigits hEnds, List.take_of_length_le (hLength.trans_le hNine),
    readDecimal?_digits hDigits (digits_ne_nil hWidth n), value_field hLess, hLength,
    List.drop_left' hLength, Option.map_some]

/-- The part of a second is read back, however many digits it takes. -/
theorem fraction_chars (hNano : n < 1000000000) (hEnds : Ends rest)
    (hPoint : ∀ c ∈ rest.head?, c ≠ '.') :
    fraction (fractionChars n ++ rest) = some (n, rest) := by
  unfold fractionChars
  split
  · next hNone =>
    rw [hNone, List.nil_append]
    cases rest with
    | nil => rfl
    | cons c rest =>
      rw [fraction]
      rintro cs ⟨⟩
      exact hPoint _ rfl rfl
  split
  · next hMillis =>
    have hWhole : n / 1000000 * 1000000 = n := by omega
    rw [fraction_field hEnds (by decide) (by decide) (by omega)]
    exact congrArg (fun m => some (m, rest)) hWhole
  split
  · next hMicros =>
    have hWhole : n / 1000 * 1000 = n := by omega
    rw [fraction_field hEnds (by decide) (by decide) (by omega)]
    exact congrArg (fun m => some (m, rest)) hWhole
  · rw [fraction_field hEnds (by decide) (by decide) hNano]
    exact congrArg (fun m => some (m, rest)) (Nat.mul_one n)

-- ---------------------------------------------------------------------------
-- Timestamps
-- ---------------------------------------------------------------------------

theorem date_chars (d : Date) (hMonth : d.month < 100) (hDay : d.day < 100) (rest : List Char) :
    date (yearChars d.year ++ '-' :: (decimalField 2 d.month ++ '-' :: (decimalField 2 d.day ++ rest))) =
      some (d, rest) := by
  have hEnds : ∀ cs, Ends ('-' :: cs) := by
    rintro cs c ⟨⟩
    decide
  unfold date
  simp only [year_chars _ (hEnds _), separator_self (c := '-') (by decide), field_two hMonth,
    field_two hDay, Option.bind_eq_bind, Option.bind_some]
  rfl

/-- A time of day is read back: a leap second is the second 60. -/
theorem timeOfDay_chars (t : Timestamp) (hEnds : Ends rest) (hPoint : ∀ c ∈ rest.head?, c ≠ '.') :
    timeOfDay (decimalField 2 (t.second / 3600) ++ ':' :: (decimalField 2 (t.second / 60 % 60) ++ ':' ::
      (decimalField 2 (if 1000000000 ≤ t.nano then 60 else t.second % 60) ++
        (fractionChars (if 1000000000 ≤ t.nano then t.nano - 1000000000 else t.nano) ++ rest)))) =
      some ((t.second, t.nano), rest) := by
  have hSecond := t.second_lt
  have hNano := t.nano_lt
  have hHour : t.second / 3600 < 100 := by omega
  have hMinute : t.second / 60 % 60 < 100 := by omega
  have hLast : (if 1000000000 ≤ t.nano then 60 else t.second % 60) < 100 := by split <;> omega
  have hPart : (if 1000000000 ≤ t.nano then t.nano - 1000000000 else t.nano) < 1000000000 := by
    split <;> omega
  unfold timeOfDay
  simp only [separator_self (c := ':') (by decide), field_two hHour, field_two hMinute,
    field_two hLast, fraction_chars hPart hEnds hPoint, Option.bind_eq_bind, Option.bind_some]
  by_cases hLeap : 1000000000 ≤ t.nano
  · have hLastSecond := t.leap hLeap
    have hWhole : t.second / 3600 * 3600 + t.second / 60 % 60 * 60 + 59 = t.second := by omega
    rw [if_pos hLeap, if_pos hLeap, if_neg (by omega), if_pos rfl, hWhole, Nat.sub_add_cancel hLeap]
  · have hWhole : t.second / 3600 * 3600 + t.second / 60 % 60 * 60 + t.second % 60 = t.second := by
      omega
    rw [if_neg hLeap, if_neg hLeap, if_neg (by omega), if_neg (by omega), hWhole]

theorem ofParts?_self (t : Timestamp) : Timestamp.ofParts? t.day t.second t.nano = some t :=
  dif_pos ⟨⟨t.day_ge, t.day_le⟩, t.second_lt, t.nano_lt, t.leap⟩

/-- The date and the time of day of a timestamp are those of no other. -/
theorem assemble_ofDays (t : Timestamp) :
    assemble (Date.ofDays t.day) t.second t.nano 0 = some t := by
  obtain ⟨hValid, hDays⟩ := Date.ofDays_spec t.day
  have hSecond := t.second_lt
  have hDay : (t.day * 86400 + t.second - 0) / 86400 = t.day := by omega
  have hRest : ((t.day * 86400 + t.second - 0) % 86400).toNat = t.second := by omega
  have hRange : ¬ (t.day < Timestamp.firstDay ∨ Timestamp.lastDay < t.day) := by
    have hFirst := t.day_ge
    have hLast := t.day_le
    omega
  unfold assemble
  simp only [hValid, hDays, hDay, hRest, if_neg hRange]
  exact ofParts?_self t

/-- A timestamp is read back from its characters. -/
theorem read?_chars (t : Timestamp) : read? (chars t) = some t := by
  obtain ⟨hMonth, hDay⟩ := Date.lt_of_isValid (Date.ofDays_spec t.day).1
  have hEnds : Ends ['Z'] := by
    rintro c ⟨⟩
    decide
  have hPoint : ∀ c ∈ ['Z'].head?, c ≠ '.' := by
    rintro c ⟨⟩
    decide
  unfold chars read?
  simp only [List.append_assoc, List.cons_append]
  rw [date_chars _ hMonth hDay, Option.bind_eq_bind, Option.bind_some, divider, if_pos (Or.inl rfl),
    Option.bind_eq_bind, Option.bind_some, timeOfDay_chars t hEnds hPoint, Option.bind_eq_bind,
    Option.bind_some]
  exact assemble_ofDays t

/-- A timestamp is read back from its text. -/
theorem parse_text (t : Timestamp) : parse? (text t) = some t := by
  unfold parse? text
  rw [String.toList_ofList, read?_chars]

end Rfc3339

end Purse
