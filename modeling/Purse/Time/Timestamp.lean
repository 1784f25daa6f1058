import Purse.Time.Calendar

/-!
# Timestamps

A moment of wall-clock time in the time zone of Greenwich: a day, a second of the day, and
nanoseconds. A leap second is the last second of a minute going on for up to two seconds. Days reach
from the first of January of the year -262143 to the last of December of the year 262142.
-/

namespace Purse

/-- The first day a timestamp can name. -/
abbrev Timestamp.firstDay : Int := -96465292

/-- The last day a timestamp can name. -/
abbrev Timestamp.lastDay : Int := 95026236

/-- A moment of wall-clock time. -/
structure Timestamp where
  /-- Days since the first of January 1970. -/
  day : Int
  /-- Seconds since midnight. -/
  second : Nat
  /-- Nanoseconds; a whole second more in a leap second. -/
  nano : Nat
  day_ge : Timestamp.firstDay ≤ day := by decide
  day_le : day ≤ Timestamp.lastDay := by decide
  second_lt : second < 86400 := by decide
  nano_lt : nano < 2000000000 := by decide
  /-- Only the last second of a minute is followed by a leap second. -/
  leap : 1000000000 ≤ nano → second % 60 = 59 := by decide
  deriving DecidableEq, Repr

namespace Timestamp

/-- The beginning of the year 1970. -/
def epoch : Timestamp := { day := 0, second := 0, nano := 0 }

instance : Inhabited Timestamp := ⟨epoch⟩

/-- The timestamp of a day, a second and nanoseconds, when they are in range. -/
def ofParts? (day : Int) (second nano : Nat) : Option Timestamp :=
  if h : (firstDay ≤ day ∧ day ≤ lastDay) ∧ second < 86400 ∧ nano < 2000000000
      ∧ (1000000000 ≤ nano → second % 60 = 59) then
    some ⟨day, second, nano, h.1.1, h.1.2, h.2.1, h.2.2.1, h.2.2.2⟩
  else none

/-- Whole milliseconds since the beginning of the year 1970. -/
def toMillis (t : Timestamp) : Int :=
  (t.day * 86400 + t.second) * 1000 + t.nano / 1000000

/-- The timestamp of a number of milliseconds since the beginning of the year 1970. -/
def ofMillis? (ms : Int) : Option Timestamp :=
  let seconds := ms / 1000
  ofParts? (seconds / 86400) (seconds % 86400).toNat ((ms % 1000).toNat * 1000000)

end Timestamp

end Purse
