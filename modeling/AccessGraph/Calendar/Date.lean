/-!
# Calendar dates

Dates of the proleptic Gregorian calendar in the years 1 to 9999.  `Date.dayNumber` counts the days
since the first day of year 1; `Date.ofDayNumber?` is its inverse on the days of those years.
-/

namespace AccessGraph

/-- Whether a year has a leap day. -/
def isLeapYear (year : Nat) : Bool :=
  (year % 4 == 0 && year % 100 != 0) || year % 400 == 0

/-- The number of days in a month; a number that names no month has none. -/
def monthLength (year month : Nat) : Nat :=
  if month ∈ [1, 3, 5, 7, 8, 10, 12] then 31
  else if month ∈ [4, 6, 9, 11] then 30
  else if month = 2 then (if isLeapYear year then 29 else 28)
  else 0

/-- Whether year, month and day name a day of the years 1 to 9999. -/
def isCalendarDay (year month day : Nat) : Bool :=
  1 ≤ year && year ≤ 9999 && 1 ≤ day && day ≤ monthLength year month

/-- A date. -/
structure Date where
  year : Nat
  month : Nat
  day : Nat
  isDay : isCalendarDay year month day = true
  deriving DecidableEq, Repr

namespace Date

/-- The date with the given parts, if there is one. -/
def ofParts? (year month day : Nat) : Option Date :=
  if h : isCalendarDay year month day = true then some ⟨year, month, day, h⟩ else none

/-- The number of days before the first day of a year, counted from year 1. -/
def daysBeforeYear (year : Nat) : Nat :=
  let y := year - 1
  365 * y + y / 4 - y / 100 + y / 400

/-- The number of days of a year that precede a month. -/
def daysBeforeMonth (year : Nat) : (month : Nat) → Nat
  | 0 => 0
  | month + 1 => daysBeforeMonth year month + monthLength year month

/-- The number of days since the first day of year 1. -/
def dayNumber (d : Date) : Nat :=
  daysBeforeYear d.year + daysBeforeMonth d.year d.month + (d.day - 1)

/-- The year that holds a day, and the number of days of that year before it.  A cycle of four
hundred years has 146097 days, a century 36524 and four years 1461, each with a day more at the
end of some of them. -/
def yearOfDay (n : Nat) : Nat × Nat :=
  let cycle := n / 146097
  let r := n % 146097
  let century := min (r / 36524) 3
  let r := r - century * 36524
  let olympiad := r / 1461
  let r := r % 1461
  let year := min (r / 365) 3
  (cycle * 400 + century * 100 + olympiad * 4 + year + 1, r - year * 365)

/-- The month that holds the day with `n` days of the months from `month` on before it, and the
number of days of that month before it. -/
def monthOfDay (year : Nat) : (fuel : Nat) → (month n : Nat) → Nat × Nat
  | 0, month, n => (month, n)
  | fuel + 1, month, n =>
    if n < monthLength year month then (month, n)
    else monthOfDay year fuel (month + 1) (n - monthLength year month)

/-- The date with the given day number, if it lies in the years 1 to 9999. -/
def ofDayNumber? (n : Nat) : Option Date :=
  let (year, r) := yearOfDay n
  let (month, r) := monthOfDay year 12 1 r
  ofParts? year month (r + 1)

example : (ofParts? 1970 1 1).map dayNumber = some 719162 := by decide
example : (ofDayNumber? 719162).map Date.year = some 1970 := by decide

end Date

end AccessGraph
