import AccessGraph.Proofs.Calendar.Date

/-!
# The years that have dates

`Date.ofDayNumber?` finds a date for every day before the year 10000 and for no other.  So a moment
has a form in UTC unless it has an offset and its instant lies outside the years 1 to 9999
(`Moment.utc?_eq_none_iff`).
-/

namespace AccessGraph

namespace Date

/-- The number of days in a year. -/
def yearLength (year : Nat) : Nat := if isLeapYear year then 366 else 365

/-- The rule of leap years, as arithmetic. -/
private theorem isLeapYear_iff (year : Nat) :
    isLeapYear year = true ↔ (year % 4 = 0 ∧ year % 100 ≠ 0) ∨ year % 400 = 0 := by
  simp [isLeapYear]

/-- A year has 365 days at least. -/
private theorem le_yearLength (year : Nat) : 365 ≤ yearLength year := by
  unfold yearLength
  split <;> omega

/-- The days before a year are those before the year before and that year's own. -/
theorem daysBeforeYear_succ (year : Nat) :
    daysBeforeYear (year + 2) = daysBeforeYear (year + 1) + yearLength (year + 1) := by
  -- Every fourth year is counted, every hundredth of them not, and every four-hundredth again.
  have hfour : (year + 1) / 4 = year / 4 + if (year + 1) % 4 = 0 then 1 else 0 := by split <;> omega
  have hhundred : (year + 1) / 100 = year / 100 + if (year + 1) % 100 = 0 then 1 else 0 := by
    split <;> omega
  have hcycle : (year + 1) / 400 = year / 400 + if (year + 1) % 400 = 0 then 1 else 0 := by
    split <;> omega
  have hle : year / 100 ≤ year / 4 := by omega
  have hmod : (year + 1) % 100 = 0 → (year + 1) % 4 = 0 := by omega
  have hmod' : (year + 1) % 400 = 0 → (year + 1) % 100 = 0 := by omega
  simp only [daysBeforeYear, Nat.add_sub_cancel, yearLength, isLeapYear_iff,
    show year + 2 - 1 = year + 1 from rfl, hfour, hhundred, hcycle]
  clear hfour hhundred hcycle
  generalize (year + 1) % 4 = a at *
  generalize (year + 1) % 100 = b at *
  generalize (year + 1) % 400 = c at *
  grind

/-- More days lie before a later year. -/
theorem daysBeforeYear_mono {a b : Nat} (h : a ≤ b) : daysBeforeYear a ≤ daysBeforeYear b := by
  rcases Nat.eq_or_lt_of_le h with rfl | hlt
  · exact Nat.le_refl _
  · simp only [daysBeforeYear]
    omega

/-- The last year of four is a leap year, except at the end of a century that is not the last one of
its cycle. -/
private theorem yearLength_of_parts {cycle century olympiad : Nat} (ho : olympiad ≤ 24)
    (hlast : olympiad = 24 → century = 3) :
    yearLength (cycle * 400 + century * 100 + olympiad * 4 + 3 + 1) = 366 := by
  rw [yearLength, if_pos ((isLeapYear_iff _).mpr ?_)]
  by_cases h : olympiad = 24
  · exact .inr (by have := hlast h; omega)
  · exact .inl (by omega)

/-- The day lies in the year that is found for it. -/
private theorem yearOfDay_snd_lt (n : Nat) : (yearOfDay n).2 < yearLength (yearOfDay n).1 := by
  simp only [yearOfDay]
  -- The quotients get names, so that the arithmetic below is linear.
  generalize hr : n % 146097 = r
  generalize hcentury : min (r / 36524) 3 = century
  generalize hs : r - century * 36524 = s
  have hsle : s ≤ 36524 := by omega
  have hcentury' : s = 36524 → century = 3 := by omega
  by_cases hlong : s % 1461 = 1460
  · -- This is the last day of four years, which only a leap year has.
    have hyear : min (s % 1461 / 365) 3 = 3 := by omega
    rw [hyear, yearLength_of_parts (by omega) (by omega)]
    omega
  · have hle := le_yearLength
      (n / 146097 * 400 + century * 100 + s / 1461 * 4 + min (s % 1461 / 365) 3 + 1)
    omega

/-- The first year is the year 1. -/
private theorem yearOfDay_pos (n : Nat) : 1 ≤ (yearOfDay n).1 := by
  simp only [yearOfDay]
  omega

/-- The days before a thirteenth month are those of the whole year. -/
theorem daysBeforeMonth_thirteen (year : Nat) : daysBeforeMonth year 13 = yearLength year := by
  simp only [yearLength, daysBeforeMonth, monthLength]
  cases isLeapYear year <;> rfl

/-- The day lies in the month that is found for it, unless it lies behind all the months that are
looked at. -/
private theorem monthOfDay_snd_lt (year fuel month n : Nat)
    (h : daysBeforeMonth year month + n < daysBeforeMonth year (month + fuel)) :
    (monthOfDay year fuel month n).2 < monthLength year (monthOfDay year fuel month n).1 := by
  induction fuel generalizing month n with
  | zero =>
    rw [Nat.add_zero] at h
    omega
  | succ fuel ih =>
    rw [monthOfDay]
    split
    · next hshort => exact hshort
    · next hlong =>
      -- The days of a month that is passed go over into those before the next month.
      refine ih (month + 1) (n - monthLength year month) ?_
      have hfuel : month + 1 + fuel = month + (fuel + 1) := by omega
      rw [hfuel, daysBeforeMonth]
      omega

/-- A date can be made of just the parts that the calendar has a day for. -/
theorem isSome_ofParts? (year month day : Nat) :
    (ofParts? year month day).isSome = isCalendarDay year month day := by
  unfold ofParts?
  split
  · next hday => exact hday.symm
  · next hday => simpa using hday

/-- There is a date for every day before the year 10000, and for no other. -/
theorem isSome_ofDayNumber? (n : Nat) :
    (ofDayNumber? n).isSome = true ↔ n < daysBeforeYear 10000 := by
  have hyear := daysBeforeYear_yearOfDay n
  have hin := yearOfDay_snd_lt n
  have hpos := yearOfDay_pos n
  have hmonth := monthOfDay_snd_lt (yearOfDay n).1 12 1 (yearOfDay n).2
    (by rw [daysBeforeMonth_thirteen]; simpa [daysBeforeMonth, monthLength] using hin)
  -- Month and day always fit, so that only the year can be out of range.
  have hday : (ofDayNumber? n).isSome = true ↔ (yearOfDay n).1 ≤ 9999 := by
    show (ofParts? (yearOfDay n).1 (monthOfDay (yearOfDay n).1 12 1 (yearOfDay n).2).1
      ((monthOfDay (yearOfDay n).1 12 1 (yearOfDay n).2).2 + 1)).isSome = true ↔ _
    rw [isSome_ofParts?]
    simp only [isCalendarDay, Bool.and_eq_true, decide_eq_true_eq]
    omega
  rw [hday]
  rcases Nat.lt_or_ge (yearOfDay n).1 10000 with hsoon | hlate
  · -- The year ends before the year 10000 begins, and the day lies in it.
    obtain ⟨y, hy⟩ : ∃ y, (yearOfDay n).1 = y + 1 := ⟨_, (Nat.sub_add_cancel hpos).symm⟩
    have hnext := daysBeforeYear_succ y
    have hlast : daysBeforeYear (y + 2) ≤ daysBeforeYear 10000 := daysBeforeYear_mono (by omega)
    rw [hy] at hyear hin hsoon ⊢
    omega
  · have hfirst := daysBeforeYear_mono hlate
    omega

example : daysBeforeYear 10000 = 3652059 := by decide

end Date

namespace Moment

/-- The instants of the years 1 to 9999. -/
def InYears (n : Int) : Prop := 0 ≤ n ∧ n < (Date.daysBeforeYear 10000 * dayMicros : Nat)

instance (n : Int) : Decidable (InYears n) := inferInstanceAs (Decidable (_ ∧ _))

/-- A moment can be made of just the instants within the years of the calendar. -/
theorem isSome_ofInstant? (n : Int) : (ofInstant? n).isSome = true ↔ InYears n := by
  unfold ofInstant? InYears
  by_cases hn : 0 ≤ n
  · rw [if_pos hn, Option.isSome_map, Date.isSome_ofDayNumber?, Nat.div_lt_iff_lt_mul (by decide)]
    omega
  · simp [hn]

/-- A moment has no form in UTC just when it has an offset and its instant lies outside the years 1
to 9999. -/
theorem utc?_eq_none_iff {m : Moment} :
    m.utc? = none ↔ m.isAware = true ∧ ¬ InYears m.instant := by
  unfold utc? isAware
  cases m.zone with
  | none => simp
  | some z => simp [← isSome_ofInstant?]

end Moment

end AccessGraph
