import AccessGraph.Proofs.Calendar.Iso
import AccessGraph.Proofs.Calendar.Range

/-!
# The order of dates and moments as texts

The ISO form writes the larger units first and each at a fixed width, so that texts compare as the
times do.  Only the fraction of a second may be absent; the sign of the offset that follows sorts
before the point of a fraction, so this does no harm (`Moment.isoChars_lt_iff`).

Two facts meet here: what the order of two forms says about their numbers, one unit after the other,
and that days are ordered by year, month and day (`Date.dayNumber_lt_iff`).
-/

namespace AccessGraph

open Text (fixedDigits)

/-! ## Texts of equal width -/

/-- The fronts decide, if they have one length; equal fronts leave it to the rest. -/
private theorem append_lt_append_iff {a b : List Char} (h : a.length = b.length) (s t : List Char) :
    a ++ s < b ++ t ↔ a < b ∨ a = b ∧ s < t := by
  induction a generalizing b with
  | nil =>
    obtain rfl := List.length_eq_zero_iff.mp h.symm
    simp
  | cons c a ih =>
    cases b with
    | nil => simp at h
    -- The first characters decide, or else the induction goes on behind them.
    | cons d b =>
      have hlength : a.length = b.length := by simpa using h
      simp only [List.cons_append, List.cons_lt_cons_iff, ih hlength, List.cons.injEq]
      grind

/-- Decimal digits are in the order of their characters. -/
private theorem digitChar_lt_iff {m n : Nat} (hm : m < 10) (hn : n < 10) :
    Nat.digitChar m < Nat.digitChar n ↔ m < n := by
  have hall : ∀ a < 10, ∀ b < 10, (Nat.digitChar a < Nat.digitChar b ↔ a < b) := by decide
  exact hall m hm n hn

/-- Numbers are told apart by their digits where there are enough of them. -/
private theorem fixedDigits_inj {width m n : Nat} (hm : m < 10 ^ width) (hn : n < 10 ^ width) :
    fixedDigits 10 width m = fixedDigits 10 width n ↔ m = n := by
  constructor
  · intro h
    rw [← Text.digitsValue_fixedDigits hm, h, Text.digitsValue_fixedDigits hn]
  · rintro rfl
    rfl

/-- Digits of one width are ordered as their numbers. -/
private theorem fixedDigits_lt_iff {width m n : Nat} (hm : m < 10 ^ width) (hn : n < 10 ^ width) :
    fixedDigits 10 width m < fixedDigits 10 width n ↔ m < n := by
  -- The quotient decides first, the last digit among equal quotients.
  induction width generalizing m n with
  | zero =>
    rw [Nat.pow_zero] at hm hn
    have hfalse : ¬ m < n := by omega
    simp [fixedDigits, hfalse]
  | succ width ih =>
    have hm' : m / 10 < 10 ^ width := by rw [Nat.pow_succ] at hm; omega
    have hn' : n / 10 < 10 ^ width := by rw [Nat.pow_succ] at hn; omega
    have hdigit := digitChar_lt_iff (Nat.mod_lt m (by decide)) (Nat.mod_lt n (by decide))
    rw [fixedDigits, fixedDigits, append_lt_append_iff (by simp), ih hm' hn',
      fixedDigits_inj hm' hn', List.cons_lt_cons_iff, hdigit]
    simp only [List.not_lt_nil, and_false, or_false]
    omega

/-- Digits in front of a text decide before it. -/
private theorem fixedDigits_append_lt_iff {width m n : Nat} (hm : m < 10 ^ width)
    (hn : n < 10 ^ width)
    (s t : List Char) :
    fixedDigits 10 width m ++ s < fixedDigits 10 width n ++ t ↔ m < n ∨ m = n ∧ s < t := by
  rw [append_lt_append_iff (by simp), fixedDigits_lt_iff hm hn, fixedDigits_inj hm hn]

/-- Texts that start with two digits each are compared by those first. -/
private theorem twoDigits_append_lt_iff {m n : Nat} (hm : m < 100) (hn : n < 100)
    (s t : List Char) :
    twoDigits m ++ s < twoDigits n ++ t ↔ m < n ∨ m = n ∧ s < t :=
  fixedDigits_append_lt_iff (by omega) (by omega) s t

/-- One character that both texts have in front does not decide. -/
theorem cons_lt_cons_same (c : Char) (s t : List Char) : c :: s < c :: t ↔ s < t := by
  rw [List.cons_lt_cons_iff]
  simp

/-! ## Days -/

namespace Date

/-- The parts of a date are those of a day of its month. -/
private theorem parts_le (d : Date) :
    1 ≤ d.year ∧ d.month ≤ 12 ∧ 1 ≤ d.day ∧ d.day ≤ monthLength d.year d.month := by
  have hday := d.isDay
  simp only [isCalendarDay, Bool.and_eq_true, decide_eq_true_eq] at hday
  have hmonth := (monthLength_le d.year d.month).2
  omega

/-- More days lie before a later month. -/
theorem daysBeforeMonth_mono (year : Nat) {a b : Nat} (h : a ≤ b) :
    daysBeforeMonth year a ≤ daysBeforeMonth year b := by
  induction h with
  | refl => exact Nat.le_refl _
  | step _ ih =>
    rw [daysBeforeMonth]
    omega

/-- A day comes before those of later months. -/
private theorem day_lt_daysBeforeMonth (d : Date) {month : Nat} (h : d.month < month) :
    daysBeforeMonth d.year d.month + (d.day - 1) < daysBeforeMonth d.year month := by
  have hparts := d.parts_le
  have hnext : daysBeforeMonth d.year (d.month + 1) ≤ daysBeforeMonth d.year month :=
    daysBeforeMonth_mono d.year h
  rw [daysBeforeMonth] at hnext
  omega

/-- A day comes before those of later years. -/
private theorem dayNumber_lt_daysBeforeYear (d : Date) {year : Nat} (h : d.year < year) :
    d.dayNumber < daysBeforeYear year := by
  have hparts := d.parts_le
  have hin := d.day_lt_daysBeforeMonth (show d.month < 13 by omega)
  rw [daysBeforeMonth_thirteen] at hin
  obtain ⟨y, hy⟩ : ∃ y, d.year = y + 1 := ⟨_, (Nat.sub_add_cancel hparts.1).symm⟩
  have hnext := daysBeforeYear_succ y
  have hlater : daysBeforeYear (y + 2) ≤ daysBeforeYear year := daysBeforeYear_mono (by omega)
  rw [dayNumber]
  rw [hy] at hin ⊢
  omega

/-- A date of an earlier year is earlier, whatever its month and day. -/
private theorem dayNumber_lt_of_year_lt {d e : Date} (h : d.year < e.year) :
    d.dayNumber < e.dayNumber := by
  have hfirst := d.dayNumber_lt_daysBeforeYear h
  have hlater : daysBeforeYear e.year ≤ e.dayNumber := by
    rw [dayNumber]
    omega
  omega

/-- Within a year a date of an earlier month is earlier, whatever its day. -/
private theorem dayNumber_lt_of_month_lt {d e : Date} (hyear : d.year = e.year)
    (h : d.month < e.month) :
    d.dayNumber < e.dayNumber := by
  have hfirst := d.day_lt_daysBeforeMonth h
  rw [hyear] at hfirst
  rw [dayNumber, dayNumber, hyear]
  omega

/-- Days come by year, then by month, then by day of the month. -/
theorem dayNumber_lt_iff (d e : Date) :
    d.dayNumber < e.dayNumber ↔
      d.year < e.year ∨ d.year = e.year ∧
        (d.month < e.month ∨ d.month = e.month ∧ d.day < e.day) := by
  -- The first part in which the dates differ decides; each of the three can decide either way.
  rcases Nat.lt_trichotomy d.year e.year with hyear | hyear | hyear
  · have hlt := dayNumber_lt_of_year_lt hyear
    omega
  · rcases Nat.lt_trichotomy d.month e.month with hmonth | hmonth | hmonth
    · have hlt := dayNumber_lt_of_month_lt hyear hmonth
      omega
    · have hd := d.parts_le
      have he := e.parts_le
      rw [dayNumber, dayNumber, hyear, hmonth]
      omega
    · have hlt := dayNumber_lt_of_month_lt hyear.symm hmonth
      omega
  · have hlt := dayNumber_lt_of_year_lt hyear
    omega

/-- Dates of one day number are one date. -/
theorem dayNumber_inj {d e : Date} : d.dayNumber = e.dayNumber ↔
    d.year = e.year ∧ d.month = e.month ∧ d.day = e.day := by
  have hlt := dayNumber_lt_iff d e
  have hgt := dayNumber_lt_iff e d
  omega

/-- Dates are ordered as texts as their days are, whatever follows them. -/
private theorem isoChars_append_lt_iff (d e : Date) (s t : List Char) :
    d.isoChars ++ s < e.isoChars ++ t ↔
      d.dayNumber < e.dayNumber ∨ d.dayNumber = e.dayNumber ∧ s < t := by
  have hd := d.parts_lt
  have he := e.parts_lt
  simp only [isoChars, List.append_assoc, List.cons_append]
  rw [fixedDigits_append_lt_iff hd.1 he.1, cons_lt_cons_same,
    twoDigits_append_lt_iff hd.2.1 he.2.1, cons_lt_cons_same,
    twoDigits_append_lt_iff hd.2.2 he.2.2, dayNumber_lt_iff, dayNumber_inj]
  grind

end Date

/-! ## Times of day -/

namespace Clock

/-- A fraction of a second, or none, in front of the sign of an offset. -/
private theorem fraction_lt_iff {m n : Nat} (hm : m < 1000000) (hn : n < 1000000)
    (rest : List Char) :
    (if m = 0 then [] else '.' :: fixedDigits 10 6 m) ++ '+' :: rest
        < (if n = 0 then [] else '.' :: fixedDigits 10 6 n) ++ '+' :: rest ↔ m < n := by
  have hsign : ('+' : Char) < '.' := by decide
  by_cases hm0 : m = 0 <;> by_cases hn0 : n = 0
  · simp [hm0, hn0]
  · -- Without a fraction the sign comes at once, and it sorts before the point.
    simp only [hm0, hn0, ↓reduceIte, List.nil_append, List.cons_append, List.cons_lt_cons_iff,
      hsign, true_or, true_iff]
    omega
  · have hpoint : ¬ ('.' : Char) < '+' := by decide
    have hne : ('.' : Char) ≠ '+' := by decide
    simp only [hm0, hn0, ↓reduceIte, List.nil_append, List.cons_append, List.cons_lt_cons_iff,
      hpoint, hne, false_and, or_false, Nat.not_lt_zero]
  · simp only [hm0, hn0, ↓reduceIte, List.cons_append]
    rw [cons_lt_cons_same, fixedDigits_append_lt_iff (by omega) (by omega)]
    simp only [List.lt_irrefl, and_false, or_false]

/-- Times of day are ordered as texts as the microseconds of the day, in front of the sign of an
offset. -/
private theorem isoChars_append_lt_iff (a b : Clock) (rest : List Char) :
    a.isoChars ++ '+' :: rest < b.isoChars ++ '+' :: rest ↔ a.micros < b.micros := by
  -- Each part has a fixed width, so the parts are compared in turn.
  have ha := a.isLt
  have hb := b.isLt
  have hhour : a.hour < 100 ∧ b.hour < 100 := by simp only [hour]; omega
  have hminute : a.minute < 100 ∧ b.minute < 100 := by simp only [minute]; omega
  have hsecond : a.second < 100 ∧ b.second < 100 := by simp only [second]; omega
  have hmicro : a.micro < 1000000 ∧ b.micro < 1000000 := by simp only [micro]; omega
  simp only [isoChars, List.append_assoc, List.cons_append]
  rw [twoDigits_append_lt_iff hhour.1 hhour.2, cons_lt_cons_same,
    twoDigits_append_lt_iff hminute.1 hminute.2, cons_lt_cons_same,
    twoDigits_append_lt_iff hsecond.1 hsecond.2, fraction_lt_iff hmicro.1 hmicro.2]
  -- The order of the parts, most significant first, is that of the microseconds of the day.
  simp only [hour, minute, second, micro]
  omega

end Clock

/-! ## Moments -/

namespace Moment

/-- Behind the time of day of a moment in UTC stands `+00:00`. -/
theorem isoChars_of_utc {u : Moment} (h : u.offset = some .utc) (separator : Char) :
    u.isoChars separator = u.date.isoChars ++ separator :: u.clock.isoChars ++ "+00:00".toList := by
  rw [isoChars, h]
  rfl

/-- The instant of a moment in UTC is its day and its time of day. -/
private theorem instant_of_utc {u : Moment} (h : u.offset = some .utc) :
    u.instant = (u.date.dayNumber * dayMicros + u.clock.micros : Nat) := by
  rw [instant, h, wallMicros]
  simp [Offset.utc]

/-- Moments in UTC are ordered as texts as their instants are. -/
theorem isoChars_lt_iff {u v : Moment} (hu : u.offset = some .utc) (hv : v.offset = some .utc)
    (separator : Char) (rest : List Char) :
    u.isoChars separator ++ rest < v.isoChars separator ++ rest ↔ u.instant < v.instant := by
  -- What follows the clock is the same in both texts, so the dates decide and then the clocks.
  have hclock := Clock.isoChars_append_lt_iff u.clock v.clock ("00:00".toList ++ rest)
  have hshape : ∀ cs : List Char, cs ++ ("+00:00".toList ++ rest)
      = cs ++ '+' :: ("00:00".toList ++ rest) := fun _ => rfl
  have hult := u.clock.isLt
  have hvlt := v.clock.isLt
  rw [isoChars_of_utc hu, isoChars_of_utc hv]
  simp only [List.append_assoc, List.cons_append]
  rw [Date.isoChars_append_lt_iff, cons_lt_cons_same, hshape, hshape, hclock, instant_of_utc hu,
    instant_of_utc hv, dayMicros]
  omega

/-- The microseconds of the second are those of the instant: offsets are whole seconds. -/
private theorem micro_eq_instant (m : Moment) : (m.clock.micro : Int) = m.instant % 1000000 := by
  simp only [Clock.micro, instant, wallMicros, dayMicros]
  omega

/-- A change to UTC is by whole seconds, so it keeps the part below a second. -/
theorem micro_of_utc? {m u : Moment} (h : m.utc? = some u) : u.clock.micro = m.clock.micro := by
  have hinstant := (instant_of_utc? h).1
  have hu := u.micro_eq_instant
  have hm := m.micro_eq_instant
  omega

end Moment

end AccessGraph
