import AccessGraph.Calendar.Moment

/-!
# Moments on one clock and on several

Moments of one zone are compared by what its clock shows, which goes with their instants as long as
the clock is not changed between them (`Moment.isBefore_iff_of_steady`).  Two moments with a change
between them may be in one order on the clock and in the other as instants.
-/

namespace AccessGraph.Moment

/-- The moments are on different clocks, or on one that has the same offset at both. -/
def Steady (a b : Moment) : Prop := a.zone = b.zone → a.offset = b.offset

instance (a b : Moment) : Decidable (Steady a b) := inferInstanceAs (Decidable (_ → _))

/-- A clock that never changes is steady.  So are moments without a zone. -/
theorem steady_of_not_region {a : Moment} (h : ∀ r, a.zone ≠ some (.region r)) (b : Moment) :
    Steady a b := by
  intro hzone
  rw [offset, offset, ← hzone]
  cases hz : a.zone with
  | none => simp
  | some z =>
    cases z with
    | given o => simp [Zone.offset]
    | configured o => simp [Zone.offset]
    | region r => exact absurd hz (h r)

/-- On one clock moments are compared by what it shows, whatever was done to it between them. -/
theorem isBefore_iff_of_zone_eq {a b : Moment} (h : a.zone = b.zone) :
    a.isBefore b = true ↔ a.wallMicros < b.wallMicros := by
  simp [isBefore, h]

/-- On a clock that is not changed in between, the order is that of the instants. -/
theorem isBefore_iff_of_steady {a b : Moment} (h : Steady a b) :
    a.isBefore b = true ↔ a.instant < b.instant := by
  by_cases hzone : a.zone = b.zone
  · -- The clock is ahead of the instants by one offset at both moments.
    rw [isBefore_iff_of_zone_eq hzone, instant, instant, h hzone]
    omega
  · simp [isBefore, hzone]

/-- One moment is before another if it is so by the clock that they share, and by their instants
unless that clock is changed between them. -/
theorem isBefore_iff {a b : Moment} : a.isBefore b = true ↔
    (Steady a b → a.instant < b.instant) ∧ (a.zone = b.zone → a.wallMicros < b.wallMicros) := by
  by_cases hzone : a.zone = b.zone
  · refine ⟨fun h => ⟨fun hsteady => (isBefore_iff_of_steady hsteady).mp h,
      fun _ => (isBefore_iff_of_zone_eq hzone).mp h⟩, fun h => ?_⟩
    exact (isBefore_iff_of_zone_eq hzone).mpr (h.2 hzone)
  · have hsteady : Steady a b := fun h => absurd h hzone
    simp [isBefore_iff_of_steady hsteady, hsteady, hzone]

/-! ## A change of the clock -/

/-- The day on which clocks are put forward in 2026. -/
def springDay : Date := ⟨2026, 3, 29, rfl⟩

/-- The day on which clocks are put back in 2026. -/
def autumnDay : Date := ⟨2026, 10, 25, rfl⟩

/-- What a clock shows at a full hour. -/
def onTheHour (day : Date) (hour : Nat) : Int :=
  (day.dayNumber * dayMicros + hour * 3600000000 : Nat)

/-- The offset of some hours to the east. -/
def hoursEast (hours : Nat) (h : hours < 24) : Offset := ⟨hours * 3600, by omega⟩

/-- The clock of Berlin in 2026.  It skips the hour from two to three on the one day, and shows it
twice on the other. -/
def berlin : Region where
  key := "Europe/Berlin"
  copy := 0
  early := ⟨hoursEast 1 (by decide), [(onTheHour springDay 3, hoursEast 2 (by decide)),
    (onTheHour autumnDay 3, hoursEast 1 (by decide))]⟩
  late := ⟨hoursEast 1 (by decide), [(onTheHour springDay 2, hoursEast 2 (by decide)),
    (onTheHour autumnDay 2, hoursEast 1 (by decide))]⟩

/-- A quarter past two, when the clock shows it for the second time. -/
def quarterPast : Moment := ⟨autumnDay, ⟨8100000000, by decide⟩, some (.region berlin), true⟩

/-- Half past two, when the clock shows it for the first time. -/
def halfPast : Moment := ⟨autumnDay, ⟨9000000000, by decide⟩, some (.region berlin), false⟩

/-- On the clock the first of them comes first, as instants the second. -/
example : quarterPast.isBefore halfPast = true ∧ halfPast.instant < quarterPast.instant := by
  decide +kernel

end AccessGraph.Moment
