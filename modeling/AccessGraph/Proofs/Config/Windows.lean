import AccessGraph.Proofs.Config.Entries

/-!
# Configurations with a validity window

The ends of a window may stand in the entries of a configuration as moments; an end that is null or
absent is open.  Where everything beside the window is sound, such a configuration is read exactly
if the window is in order, and then with just these ends (`RoleConfig.read_eq_ok_iff_ordered`,
`Override.read_eq_ok_iff_ordered`).
-/

namespace AccessGraph

/-! ## Windows among entries -/

/-- A value of a field, or none, that gives an end of a window: a moment gives itself, null and
nothing at all give an open end. -/
def GivesEnd (v : Option Value) (m : Option Moment) : Prop :=
  v = m.map .moment ∨ v = some .null ∧ m = none

/-- The entries give both ends of a window. -/
structure ValidityWindow.GivenBy (w : ValidityWindow) (es : Entries) : Prop where
  validFrom : GivesEnd (Value.find? es "valid_from") w.validFrom
  validUntil : GivesEnd (Value.find? es "valid_until") w.validUntil

/-- The entries but for those of a validity window. -/
def withoutWindow (es : Entries) : Entries :=
  es.filter fun e => !(Schema.windowFields.map some).contains e.1.text?

/-- Entries that may differ in their validity windows only. -/
def AgreeBesideWindow (es fs : Entries) : Prop :=
  ∀ name ∉ Schema.windowFields, Value.find? es name = Value.find? fs name

/-- Both ends are there, and just one of them has a zone or the instant of the first is not before
that of the second. -/
def ValidityWindow.Clashes (w : ValidityWindow) : Prop :=
  ∃ a b, w.validFrom = some a ∧ w.validUntil = some b ∧
    (a.isAware ≠ b.isAware ∨ ¬ a.instant < b.instant)

/-- No clock that both ends are on is changed between them. -/
def ValidityWindow.Steady (w : ValidityWindow) : Prop :=
  ∀ a ∈ w.validFrom, ∀ b ∈ w.validUntil, a.Steady b

/-- When something is refused for its window: if no clock is changed between the ends, just when
they clash; and if both are on one clock, just when it does not show an earlier time at the
first. -/
structure ValidityWindow.DecidesRefusal (w : ValidityWindow) (refused : Prop) : Prop where
  steady : w.Steady → (refused ↔ w.Clashes)
  shared : ∀ a ∈ w.validFrom, ∀ b ∈ w.validUntil, a.zone = b.zone →
    (refused ↔ b.wallMicros ≤ a.wallMicros)

/-- Leaving out the ends of a window changes nothing beside it. -/
theorem agreeBesideWindow_withoutWindow (es : Entries) :
    AgreeBesideWindow es (withoutWindow es) := by
  intro name hname
  have hkept : (!(Schema.windowFields.map some).contains (some name)) = true := by
    simpa using hname
  rw [withoutWindow, Value.find?_filter_text? es
    (fun t => !(Schema.windowFields.map some).contains t), if_pos hkept]

namespace ValidityWindow

variable {w : ValidityWindow} {es : Entries}

/-- Without a change of the clock, the order of a window is that of the instants of its ends. -/
theorem not_ordered_iff (h : w.Steady) : ¬ w.Ordered ↔ w.Clashes := by
  -- On a steady clock the two ways to compare are one.
  have hiff : ∀ a b, w.validFrom = some a → w.validUntil = some b →
      ((a.Steady b → a.instant < b.instant) ∧ (a.zone = b.zone → a.wallMicros < b.wallMicros)
        ↔ a.instant < b.instant) := fun a b ha hb =>
    Moment.isBefore_iff.symm.trans (Moment.isBefore_iff_of_steady (h a ha b hb))
  simp only [Ordered, Clashes, Option.mem_def, not_forall]
  constructor
  · rintro ⟨a, ha, b, hb, hnot⟩
    rw [hiff a b ha hb] at hnot
    exact ⟨a, b, ha, hb, not_and_or.mp hnot⟩
  · rintro ⟨a, b, ha, hb, hor⟩
    rw [← not_and_or, ← hiff a b ha hb] at hor
    exact ⟨a, ha, b, hb, hor⟩

/-- On one clock, the order of a window is that of what the clock shows at its ends. -/
theorem ordered_iff_of_zone_eq {a b : Moment} (ha : w.validFrom = some a)
    (hb : w.validUntil = some b) (hzone : a.zone = b.zone) :
    w.Ordered ↔ a.wallMicros < b.wallMicros := by
  have haware : a.isAware = b.isAware := congrArg Option.isSome hzone
  simp only [Ordered, ha, hb, Option.mem_def, Option.some.injEq, forall_eq', haware, true_and]
  rw [← Moment.isBefore_iff, Moment.isBefore_iff_of_zone_eq hzone]

/-- What is refused unless its window is in order is refused for its window. -/
theorem decidesRefusal_of_iff {refused : Prop} (h : refused ↔ ¬ w.Ordered) :
    w.DecidesRefusal refused where
  steady := fun hsteady => h.trans (not_ordered_iff hsteady)
  shared := fun a ha b hb hzone => by
    rw [h, ordered_iff_of_zone_eq ha hb hzone, Int.not_lt]

/-- An end that is given by a moment, by null or not at all is read as such. -/
private theorem optional_end {name : String} {m : Option Moment}
    (h : GivesEnd (Value.find? es name) m) :
    Field.optional es name none (Field.nullable Field.moment) = .ok m := by
  rcases h with h | ⟨h, rfl⟩
  · cases m with
    | none => simp [Field.optional, h]
    | some m => simp [Field.optional, h, Field.nullable, Field.moment, Checked.map, Checked.under]
  · simp [Field.optional, h, Field.nullable, Checked.under]

/-- The ends of a window that is given are read as given. -/
theorem GivenBy.ends_eq_ok (h : w.GivenBy es) : ends es = .ok w := by
  rw [ends, optional_end h.validFrom, optional_end h.validUntil]
  rfl

end ValidityWindow

/-! ## What is read beside a window -/

section

variable {es fs : Entries} (h : AgreeBesideWindow es fs)

include h

/-- Entries that agree beside the window have the same name. -/
private theorem nameField_congr (most : Nat) : nameField es most = nameField fs most :=
  Field.required_congr (h "name" (by decide))

private theorem descriptionField_congr : descriptionField es = descriptionField fs :=
  Field.optional_congr (h "description" (by decide))

private theorem metadataField_congr : metadataField es = metadataField fs :=
  Field.optional_congr (h "metadata" (by decide))

/-- Where a role is read with some window, it is read with another one if that is in order. -/
theorem RoleConfig.read_eq_ok_iff_ordered {w : ValidityWindow} (hw : w.GivenBy es)
    {c d : RoleConfig} (hc : read fs = .ok c) :
    read es = .ok d ↔ w.Ordered ∧ d = { c with window := w } := by
  -- All fields but the window are as they were, so the window alone decides.
  obtain ⟨-, hname, hdescription, hrank, hmetadata, -⟩ := read_eq_ok.mp hc
  rw [read_eq_ok, hw.ends_eq_ok, nameField_congr h, descriptionField_congr h, metadataField_congr h,
    Field.optional_congr (h "rank" (by decide)), hname, hdescription, hrank, hmetadata,
    ValidityWindow.fault?_eq_none]
  obtain ⟨window, name, description, rank, metadata⟩ := d
  simp only [Checked.ok.injEq, RoleConfig.mk.injEq]
  constructor
  · rintro ⟨rfl, rfl, rfl, rfl, rfl, hordered⟩
    exact ⟨hordered, rfl, rfl, rfl, rfl, rfl⟩
  · rintro ⟨hordered, rfl, rfl, rfl, rfl, rfl⟩
    exact ⟨rfl, rfl, rfl, rfl, rfl, hordered⟩

/-- Where an override is read with some window, it is read with another one if that is in order. -/
theorem Override.read_eq_ok_iff_ordered {w : ValidityWindow} (hw : w.GivenBy es)
    {o p : Override} (ho : read fs = .ok o) :
    read es = .ok p ↔ w.Ordered ∧ p = { o with window := w } := by
  -- All fields but the window are as they were, so the window alone decides.
  obtain ⟨-, hname, hgrant, hmetadata, -⟩ := read_eq_ok.mp ho
  rw [read_eq_ok, hw.ends_eq_ok, metadataField_congr h,
    Field.required_congr (h "permission_name" (by decide)),
    Field.required_congr (h "is_grant" (by decide)), hname, hgrant, hmetadata,
    ValidityWindow.fault?_eq_none]
  obtain ⟨window, name, isGrant, metadata⟩ := p
  simp only [Checked.ok.injEq, Override.mk.injEq]
  constructor
  · rintro ⟨rfl, rfl, rfl, rfl, hordered⟩
    exact ⟨hordered, rfl, rfl, rfl, rfl⟩
  · rintro ⟨hordered, rfl, rfl, rfl, rfl⟩
    exact ⟨rfl, rfl, rfl, rfl, hordered⟩

end

end AccessGraph
