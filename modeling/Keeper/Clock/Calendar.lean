import Keeper.Value.Display

/-!
# Keeper — the calendar

The day and the time of day of a moment that is given as seconds since the beginning of 1970, in
universal time.

* **`Date.ofDayNumber`** — the date of a day, counted from the beginning of 1970.
* **`Date.ofSeconds`**, **`TimeOfDay.ofSeconds`** — the two parts of a moment.
-/

namespace Keeper

/-- The days from the first of March of the year zero to the beginning of 1970. -/
def daysBefore1970 : Nat := 719468

def daysOfCycle : Nat := 146097

def secondsOfDay : Nat := 86400

/-- The date of a day, counted from the beginning of 1970. Years are taken to begin in
March, so that a leap day is the last day of its year, and the months from March on have
lengths that repeat every five months. -/
def Date.ofDayNumber (n : Nat) : Date :=
  let day := n + daysBefore1970
  let inCycle := day % daysOfCycle
  let yearInCycle := (inCycle - inCycle / 1460 + inCycle / 36524 - inCycle / 146096) / 365
  let inYear := inCycle - (365 * yearInCycle + yearInCycle / 4 - yearInCycle / 100)
  let monthFromMarch := (5 * inYear + 2) / 153
  let month := if monthFromMarch < 10 then monthFromMarch + 3 else monthFromMarch - 9
  { year := 400 * (day / daysOfCycle) + yearInCycle + (if month ≤ 2 then 1 else 0)
    month
    day := inYear - (153 * monthFromMarch + 2) / 5 + 1 }

def Date.ofSeconds (n : Nat) : Date := .ofDayNumber (n / secondsOfDay)

def TimeOfDay.ofSeconds (n : Nat) : TimeOfDay where
  hour := n % secondsOfDay / 3600
  minute := n % 3600 / 60
  second := n % 60
  micros := 0
  offset := none

end Keeper
