import Mathlib.Tactic.IntervalCases
import Mathlib.Tactic.SplitIfs
import Purse.Time.Calendar

/-!
# Days and dates

Every day has a date, and the date leads back to the day. A cycle of 400 years is taken apart into
centuries, runs of four years, years and days: a day of a cycle is told by how many of each have passed,
and the day that ends a leap year is the one day that comes last in more than one of them.

## Definitions

* `Date.CycleDay`: a day of a cycle, in parts.

## Results

* `Date.exists_cycleDay`: every day of a cycle has its parts.
* `Date.CycleDay.yearOfCycle_eq`: the year of a cycle in which a day lies.
* `Date.ofMarchDay_spec`: the month in which a day lies.
* `Date.ofDays_spec`: the date of a day, and the day of that date.
-/

namespace Purse

namespace Date

/-- A day of a cycle, by the centuries, the runs of four years, the years and the days that have passed
before it. There is a day 365 in leap years only, which are the last years of such runs, but for the
last runs of centuries other than the fourth. -/
structure CycleDay where
  century : Int
  run : Int
  year : Int
  day : Int
  century_range : 0 ≤ century ∧ century ≤ 3
  run_range : 0 ≤ run ∧ run ≤ 24
  year_range : 0 ≤ year ∧ year ≤ 3
  day_range : 0 ≤ day ∧ day ≤ 365
  leap : day = 365 → year = 3 ∧ (run = 24 → century = 3)

namespace CycleDay

variable (p : CycleDay)

/-- Days before a day of a cycle. -/
def dayOfCycle : Int := 36524 * p.century + 1461 * p.run + 365 * p.year + p.day

/-- Years before that in which a day of a cycle lies. -/
def yearOfCycle : Int := 100 * p.century + 4 * p.run + p.year

theorem yearOfCycle_range : 0 ≤ p.yearOfCycle ∧ p.yearOfCycle < 400 := by
  have hCentury := p.century_range
  have hRun := p.run_range
  have hYear := p.year_range
  unfold yearOfCycle
  omega

theorem daysBeforeYear_eq :
    daysBeforeYear p.yearOfCycle = 36524 * p.century + 1461 * p.run + 365 * p.year := by
  have hRun := p.run_range
  have hYear := p.year_range
  unfold daysBeforeYear yearOfCycle
  omega

/-- Only the last day of a cycle lies beyond the days that its centuries have in common. -/
theorem centuries_eq : p.dayOfCycle / 36524 - p.dayOfCycle / 146096 = p.century := by
  have hCentury := p.century_range
  have hRun := p.run_range
  have hYear := p.year_range
  have hDay := p.day_range
  unfold dayOfCycle
  by_cases hLast : p.run = 24 ∧ p.day = 365
  · have hLeap := p.leap hLast.2
    omega
  · have hRest : 1461 * p.run + 365 * p.year + p.day < 36524 := by omega
    have hFirst : (36524 * p.century + 1461 * p.run + 365 * p.year + p.day) / 36524 = p.century := by
      omega
    have hNone : (36524 * p.century + 1461 * p.run + 365 * p.year + p.day) / 146096 = 0 := by omega
    rw [hFirst, hNone, Int.sub_zero]

/-- The year of a day is found by taking the days off that leap years have more than others. -/
theorem yearOfCycle_eq :
    (p.dayOfCycle - p.dayOfCycle / 1460 + p.dayOfCycle / 36524 - p.dayOfCycle / 146096) / 365 =
      p.yearOfCycle := by
  have hCenturies := p.centuries_eq
  have hCentury := p.century_range
  have hRun := p.run_range
  have hYear := p.year_range
  have hDay := p.day_range
  have hLeap := p.leap
  unfold dayOfCycle at *
  unfold yearOfCycle
  -- towards the end of a run the days of its leap years and of those before make up one more
  by_cases hMore : 24 * p.century + p.run + 365 * p.year + p.day < 1460
  · have hRuns : (36524 * p.century + 1461 * p.run + 365 * p.year + p.day) / 1460 =
        25 * p.century + p.run := by
      omega
    omega
  · have hRuns : (36524 * p.century + 1461 * p.run + 365 * p.year + p.day) / 1460 =
        25 * p.century + p.run + 1 := by
      omega
    omega

end CycleDay

/-- Every day of a cycle has its parts. -/
theorem exists_cycleDay {n : Int} (hNonneg : 0 ≤ n) (hLess : n < cycle) :
    ∃ p : CycleDay, p.dayOfCycle = n := by
  unfold cycle at hLess
  by_cases hLast : n = 146096
  · exact ⟨⟨3, 24, 3, 365, by decide, by decide, by decide, by decide, by decide⟩, hLast.symm⟩
  by_cases hLeap : n % 36524 % 1461 = 1460
  · refine ⟨⟨n / 36524, n % 36524 / 1461, 3, 365, by omega, by omega, by decide, by decide, ?_⟩, ?_⟩
    · omega
    · unfold CycleDay.dayOfCycle
      simp only
      omega
  · refine ⟨⟨n / 36524, n % 36524 / 1461, n % 36524 % 1461 / 365, n % 36524 % 1461 % 365, by omega,
      by omega, by omega, by omega, by omega⟩, ?_⟩
    unfold CycleDay.dayOfCycle
    simp only
    omega

/-- The date of a day of a year that begins in March, by the month counted from March. -/
def ofMarchDay (year month day : Int) : Date :=
  let monthOfYear := if month < 10 then month + 3 else month - 9
  { year := year + if monthOfYear ≤ 2 then 1 else 0
    month := monthOfYear.toNat
    day := (day - daysBeforeMonth month + 1).toNat }

theorem ofDays_eq {p : CycleDay} {days : Int} (hDay : p.dayOfCycle = (days + epochOffset) % cycle) :
    ofDays days = ofMarchDay (p.yearOfCycle + (days + epochOffset) / cycle * 400)
      ((5 * p.day + 2) / 153) p.day := by
  have hRest : p.dayOfCycle - daysBeforeYear p.yearOfCycle = p.day := by
    rw [p.daysBeforeYear_eq]
    unfold CycleDay.dayOfCycle
    omega
  unfold ofDays
  simp only [← hDay, p.yearOfCycle_eq, hRest]
  rfl

/-- A date of a day of a year that begins in March: the months have room for all days, the last one for
the leap day only in leap years. -/
theorem ofMarchDay_spec {year month day : Int} (hDay : 0 ≤ day ∧ day ≤ 365)
    (hLeap : day = 365 → isLeapYear (year + 1) = true) (hMonth : month = (5 * day + 2) / 153) :
    let d := ofMarchDay year month day
    d.isValid = true ∧ (if d.month ≤ 2 then d.year - 1 else d.year) = year ∧
      (((d.month + 9) % 12 : Nat) : Int) = month ∧ daysBeforeMonth month + d.day - 1 = day := by
  obtain ⟨hLow, hHigh⟩ : 0 ≤ month ∧ month ≤ 11 := by omega
  unfold ofMarchDay isValid daysInMonth daysBeforeMonth
  interval_cases month
  case «11» =>
    -- from March on February comes last
    cases hLeapYear : isLeapYear (year + 1) with
    | true =>
      simp [hLeapYear]
      omega
    | false =>
      have hNoLeapDay : day ≠ 365 := fun hLast => by simp [hLeap hLast] at hLeapYear
      simp [hLeapYear]
      omega
  all_goals
    simp
    omega

theorem isLeapYear_of_leapDay {p : CycleDay} (hDay : p.day = 365) (cycles : Int) :
    isLeapYear (p.yearOfCycle + cycles * 400 + 1) = true := by
  obtain ⟨hYear, hRun⟩ := p.leap hDay
  have hRange := p.run_range
  unfold CycleDay.yearOfCycle isLeapYear
  simp only [Bool.and_eq_true, Bool.or_eq_true, beq_iff_eq, bne_iff_ne]
  omega

/-- The date of a day, and the day of that date. -/
theorem ofDays_spec (days : Int) : (ofDays days).isValid = true ∧ (ofDays days).toDays = days := by
  have hPos : (0 : Int) < cycle := by decide
  obtain ⟨p, hDay⟩ := exists_cycleDay (Int.emod_nonneg (days + epochOffset) hPos.ne')
    (Int.emod_lt_of_pos (days + epochOffset) hPos)
  have hYear := p.yearOfCycle_range
  have hBefore := p.daysBeforeYear_eq
  have hMonth := ofMarchDay_spec p.day_range
    (fun hLast => isLeapYear_of_leapDay hLast ((days + epochOffset) / cycle)) rfl
  rw [← ofDays_eq hDay] at hMonth
  obtain ⟨hValid, hFromMarch, hMonth, hDays⟩ := hMonth
  refine ⟨hValid, ?_⟩
  have hCycles : (p.yearOfCycle + (days + epochOffset) / cycle * 400) / 400 =
      (days + epochOffset) / cycle := by omega
  have hInCycle : (p.yearOfCycle + (days + epochOffset) / cycle * 400) % 400 = p.yearOfCycle := by
    omega
  have hSplit := Int.mul_ediv_add_emod (days + epochOffset) cycle
  unfold toDays
  rw [hFromMarch, hMonth]
  simp only [hCycles, hInCycle, hBefore]
  unfold CycleDay.dayOfCycle at hDay
  rw [Int.mul_comm] at hSplit
  omega

/-- Months and days have two digits. -/
theorem lt_of_isValid {d : Date} (hValid : d.isValid = true) : d.month < 100 ∧ d.day < 100 := by
  simp only [isValid, Bool.and_eq_true, decide_eq_true_eq] at hValid
  have hLength : daysInMonth d.year d.month ≤ 31 := by
    unfold daysInMonth
    split_ifs <;> decide
  omega

end Date

end Purse
