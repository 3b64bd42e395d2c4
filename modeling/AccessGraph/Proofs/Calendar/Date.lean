import AccessGraph.Calendar.Moment

/-!
# Days and dates

`Date.ofDayNumber?` gives the date of a day number: whatever date it finds has that day number.
Hence the conversion of a moment to UTC, which goes through the day number, keeps the instant.
-/

namespace AccessGraph

namespace Date

/-- A year of the cycle: which of the four centuries, which four years and which year of those. -/
private theorem daysBeforeYear_of_parts {cycle century olympiad year : Nat} (hc : century ≤ 3)
    (ho : olympiad ≤ 24) (hy : year ≤ 3) :
    daysBeforeYear (cycle * 400 + century * 100 + olympiad * 4 + year + 1)
      = cycle * 146097 + century * 36524 + olympiad * 1461 + year * 365 := by
  have hfour : (cycle * 400 + century * 100 + olympiad * 4 + year) / 4
      = cycle * 100 + century * 25 + olympiad := by omega
  have hhundred : (cycle * 400 + century * 100 + olympiad * 4 + year) / 100
      = cycle * 4 + century := by omega
  have hcycle : (cycle * 400 + century * 100 + olympiad * 4 + year) / 400 = cycle := by omega
  simp only [daysBeforeYear, Nat.add_sub_cancel, hfour, hhundred, hcycle]
  omega

/-- The days before the year of a day, and those of the year before the day, are all days before
it. -/
theorem daysBeforeYear_yearOfDay (n : Nat) :
    daysBeforeYear (yearOfDay n).1 + (yearOfDay n).2 = n := by
  simp only [yearOfDay]
  -- Only the last year of four, and the last century of four, can be longer than the others.
  rw [daysBeforeYear_of_parts (by omega) (by omega) (by omega)]
  omega

/-- Looking for the month of a day loses no days. -/
private theorem daysBeforeMonth_monthOfDay (year fuel month n : Nat) :
    daysBeforeMonth year (monthOfDay year fuel month n).1 + (monthOfDay year fuel month n).2
      = daysBeforeMonth year month + n := by
  -- The days of a month that is passed go over into those before the next month.
  induction fuel generalizing month n with
  | zero => rfl
  | succ fuel ih =>
    rw [monthOfDay]
    split
    · rfl
    · next hlong =>
      rw [ih, daysBeforeMonth]
      omega

/-- A date that is made of parts has those parts. -/
theorem ofParts?_eq_some {year month day : Nat} {d : Date} (h : ofParts? year month day = some d) :
    d.year = year ∧ d.month = month ∧ d.day = day := by
  unfold ofParts? at h
  split at h
  · obtain rfl := Option.some.inj h
    exact ⟨rfl, rfl, rfl⟩
  · simp at h

/-- The date of a day number has that day number. -/
theorem dayNumber_of_ofDayNumber? {n : Nat} {d : Date} (h : ofDayNumber? n = some d) :
    d.dayNumber = n := by
  have hparts : ofParts? (yearOfDay n).1 (monthOfDay (yearOfDay n).1 12 1 (yearOfDay n).2).1
      ((monthOfDay (yearOfDay n).1 12 1 (yearOfDay n).2).2 + 1) = some d := h
  obtain ⟨hyear, hmonth, hday⟩ := ofParts?_eq_some hparts
  have hy := daysBeforeYear_yearOfDay n
  have hm := daysBeforeMonth_monthOfDay (yearOfDay n).1 12 1 (yearOfDay n).2
  -- No month stands in front of the first, at which the search starts.
  have hfirst : daysBeforeMonth (yearOfDay n).1 1 = 0 := rfl
  rw [dayNumber, hyear, hmonth, hday, Nat.add_sub_cancel]
  omega

end Date

namespace Moment

/-- The moment that is made of an instant is at that instant, and shows it in UTC. -/
theorem instant_of_ofInstant? {n : Int} {m : Moment} (h : ofInstant? n = some m) :
    m.instant = n ∧ m.offset = some .utc := by
  unfold ofInstant? at h
  split at h
  · next hn =>
    obtain ⟨d, hd, rfl⟩ := Option.map_eq_some_iff.mp h
    -- In UTC the wall clock shows the instant itself, which division takes apart.
    have hday := Date.dayNumber_of_ofDayNumber? hd
    refine ⟨?_, rfl⟩
    simp only [instant, offset, wallMicros, Option.map_some, Option.elim_some, Zone.utc,
      Zone.offset, Offset.utc, hday, dayMicros]
    omega
  · simp at h

/-- A moment in UTC is at the same instant, and shows that it is in UTC. -/
theorem instant_of_utc? {m u : Moment} (h : m.utc? = some u) :
    u.instant = m.instant ∧ u.offset = some .utc := by
  unfold utc? at h
  split at h
  · -- A naive moment counts as one in UTC.
    next hnaive =>
    obtain rfl := Option.some.inj h
    refine ⟨?_, rfl⟩
    simp [instant, offset, wallMicros, hnaive, Zone.utc, Zone.offset, Offset.utc]
  · exact instant_of_ofInstant? h

end Moment

end AccessGraph
