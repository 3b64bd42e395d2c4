import AccessGraph.Calendar.Date
import AccessGraph.Calendar.Zone

/-!
# Moments

A moment is a date, a time of day to the microsecond and, possibly, a time zone whose clock shows
them.  A moment without a zone is naive.  `Moment.instant` places every moment on one line, taking
naive ones as UTC; `Moment.utc?` expresses a moment in UTC and fails only where that leaves the
years 1 to 9999.

Moments of different zones are compared by their instants, but moments of one zone by what its clock
shows (`Moment.isBefore`, `Moment.sameAs`).  That is not the same where the clock of a region is
changed between them.
-/

namespace AccessGraph

/-- The number of microseconds in a day. -/
def dayMicros : Nat := 86400000000

/-- A time of day, as the microseconds since midnight. -/
structure Clock where
  micros : Nat
  isLt : micros < 86400000000
  deriving DecidableEq, Repr

namespace Clock

/-- Midnight. -/
def midnight : Clock := ⟨0, by decide⟩

/-- The time with the given parts, if there is one. -/
def ofParts? (hour minute second micro : Nat) : Option Clock :=
  if h : hour < 24 ∧ minute < 60 ∧ second < 60 ∧ micro < 1000000 then
    some ⟨((hour * 60 + minute) * 60 + second) * 1000000 + micro, by omega⟩
  else none

/-- The hour, from 0 to 23. -/
def hour (c : Clock) : Nat := c.micros / 3600000000

/-- The minute of the hour. -/
def minute (c : Clock) : Nat := c.micros / 60000000 % 60

/-- The second of the minute. -/
def second (c : Clock) : Nat := c.micros / 1000000 % 60

/-- The microsecond of the second. -/
def micro (c : Clock) : Nat := c.micros % 1000000

end Clock

/-- A date and time of day, naive or on the clock of a time zone. -/
structure Moment where
  date : Date
  clock : Clock
  zone : Option Zone
  /-- Whether the later reading is meant of a time that the clock of the zone shows twice or skips.
  -/
  fold : Bool
  deriving DecidableEq, Repr

namespace Moment

/-- The start of a day, naive. -/
def ofDate (d : Date) : Moment := ⟨d, .midnight, none, false⟩

/-- Whether the moment has a zone. -/
def isAware (m : Moment) : Bool := m.zone.isSome

/-- The microseconds since the start of year 1 that the date and the time of day show. -/
def wallMicros (m : Moment) : Int := (m.date.dayNumber * dayMicros + m.clock.micros : Nat)

/-- The offset from UTC of the clock that shows the moment. -/
def offset (m : Moment) : Option Offset := m.zone.map (Zone.offset m.wallMicros m.fold)

/-- The microseconds since the start of year 1 UTC; a naive moment is taken as UTC. -/
def instant (m : Moment) : Int :=
  m.wallMicros - (m.offset.elim 0 Offset.seconds) * 1000000

/-- The moment in UTC at an instant, if it lies in the years 1 to 9999. -/
def ofInstant? (n : Int) : Option Moment :=
  if 0 ≤ n then
    (Date.ofDayNumber? (n.toNat / dayMicros)).map fun d =>
      ⟨d, ⟨n.toNat % 86400000000, Nat.mod_lt _ (by decide)⟩, some .utc, false⟩
  else none

/-- The same instant in UTC; a naive moment is taken as UTC already. -/
def utc? (m : Moment) : Option Moment :=
  match m.zone with
  | none => some { m with zone := some .utc }
  | some _ => ofInstant? m.instant

/-- The same moment as one that was read from a configuration. -/
def configured (m : Moment) : Moment := { m with zone := m.offset.map .configured }

/-- Whether one moment comes before another, by the clock of their zone if they share it. -/
def isBefore (a b : Moment) : Bool :=
  if a.zone = b.zone then a.wallMicros < b.wallMicros else a.instant < b.instant

/-- Whether the other reading of the clock has another offset. -/
def isAmbiguous (m : Moment) : Bool := { m with fold := !m.fold }.offset != m.offset

/-- Whether moments are equal.  On one clock they are if it shows the same; on different ones, if
both are aware and at one instant, and neither has a second reading. -/
def sameAs (a b : Moment) : Bool :=
  if a.zone = b.zone then a.wallMicros == b.wallMicros
  else a.isAware && b.isAware && a.instant == b.instant && !a.isAmbiguous && !b.isAmbiguous

end Moment

end AccessGraph
