/-!
# Time zones

An aware moment is in a time zone.  Most zones have one offset from UTC at all times; the clock of a
region is put forward and back.  Where it is put back it shows the same times twice, and where it is
put forward it skips some, so that the offset depends on which of both readings is meant.
-/

namespace AccessGraph

/-- An offset from UTC of less than a day, in whole seconds; positive is east. -/
structure Offset where
  seconds : Int
  inDay : -86400 < seconds ∧ seconds < 86400
  deriving DecidableEq, Repr

namespace Offset

/-- No offset from UTC. -/
def utc : Offset := ⟨0, by decide⟩

/-- The offset of so many seconds, if it is less than a day. -/
def ofSeconds? (seconds : Int) : Option Offset :=
  if h : -86400 < seconds ∧ seconds < 86400 then some ⟨seconds, h⟩ else none

end Offset

/-- The offsets of a clock one after another: the first of them, and each later one with the time
that the clock shows, in microseconds since the start of year 1, when it comes into force. -/
structure Timetable where
  first : Offset
  changes : List (Int × Offset)
  deriving DecidableEq, Repr

/-- The offset in force when the clock shows the given time. -/
def Timetable.offset (t : Timetable) (wall : Int) : Offset :=
  ((t.changes.filter fun change => change.1 ≤ wall).getLast?.map Prod.snd).getD t.first

/-- The clock of a region.  A time that the clock shows twice or skips has two readings, and either
timetable goes with one of them: under `early` the clock was not yet changed, under `late` it was.
`copy` tells clocks of one key apart that were not loaded as one. -/
structure Region where
  key : String
  copy : Nat
  early : Timetable
  late : Timetable
  deriving DecidableEq, Repr

/-- The time zone of a moment. -/
inductive Zone where
  /-- One offset at all times, handed in with its moment. -/
  | given (offset : Offset)
  /-- One offset at all times, read from a configured text or number. -/
  | configured (offset : Offset)
  /-- The clock of a region. -/
  | region (r : Region)
  deriving DecidableEq, Repr

namespace Zone

/-- The zone of UTC. -/
def utc : Zone := .given .utc

/-- The offset when the clock of the zone shows the given time; `fold` asks for its later reading,
where it has two. -/
def offset (wall : Int) (fold : Bool) : Zone → Offset
  | .given o | .configured o => o
  | .region r => (if fold then r.late else r.early).offset wall

end Zone

end AccessGraph
