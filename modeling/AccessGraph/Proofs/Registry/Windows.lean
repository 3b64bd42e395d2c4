import AccessGraph.Proofs.Config.Windows
import AccessGraph.Proofs.Registry.Constraints

/-!
# Validity windows from the configuration to the row

A window is checked when a role is defined or a permission is granted or denied: by the instants of
its ends in whatever offsets they are given, but by the clock if both ends are in one time zone.  It
is written in UTC.  Both agree on the order unless that clock is changed between the ends: a window
is accepted exactly if it is in order, and what is written of an accepted one is two time stamps of
which the first denotes the earlier instant (`Registry.windows_stay_ordered`).  A window in the hour
that a clock shows twice may be accepted and written the wrong way round
(`Registry.repeated_hour_is_inverted`).
-/

namespace AccessGraph

open Sql (Insertion)

/-- An end of a window as callers give it. -/
def endValue (m : Option Moment) : Value := m.elim .null .moment

/-- The window with its ends the other way round. -/
def ValidityWindow.turned (w : ValidityWindow) : ValidityWindow := ⟨w.validUntil, w.validFrom⟩

/-- One of the texts inserts a row of a table, and the row holds a window: two instants as time
stamps in UTC. -/
def RecordsWindow (texts : List String) (table : String) (start stop : Int) : Prop :=
  ∃ i, texts.filterMap Insertion.read? = [i] ∧ i.table = table ∧ i.columns.Nodup ∧
    ("valid_from", some (.instant start)) ∈ i.contents ∧
    ("valid_until", some (.instant stop)) ∈ i.contents

/-- A row with the fields of a window records its ends. -/
private theorem Records.recordsWindow {texts : List String} {table : String}
    {fields : List (String × Option Content)} {w : ValidityWindow} {a b : Moment}
    (h : Records texts table fields) (hfields : ∀ x ∈ Content.ofFields w.fields, x ∈ fields)
    (ha : w.validFrom = some a) (hb : w.validUntil = some b) :
    RecordsWindow texts table a.instant b.instant := by
  obtain ⟨i, hread, htable, -, hnodup, hperm, -⟩ := h
  -- With both ends there, both columns are among the fields, in whatever order they are written.
  obtain ⟨validFrom, validUntil⟩ := w
  obtain rfl : validFrom = some a := ha
  obtain rfl : validUntil = some b := hb
  have hwindow : Content.ofFields (ValidityWindow.mk (some a) (some b)).fields
      = [("valid_from", some (.instant a.instant)),
        ("valid_until", some (.instant b.instant))] := rfl
  rw [hwindow] at hfields
  refine ⟨i, hread, htable, hnodup, ?_, ?_⟩
  · exact hperm.mem_iff.mpr (hfields _ (by simp))
  · exact hperm.mem_iff.mpr (hfields _ (by simp))

/-! ## The entries of an override -/

/-- The entries that describe an override. -/
def overrideEntries (isGrant : Bool) (permission : Value) (terms : Terms) : Entries :=
  Schema.entriesOf ([("permission_name", permission), ("is_grant", .bool isGrant)] ++ terms.fields)

/-- An override is read from the entries that its parts make. -/
private theorem overrideOf_eq (isGrant : Bool) (permission : Value) (terms : Terms) :
    Registry.overrideOf isGrant permission terms
      = (Override.read (overrideEntries isGrant permission terms)).orInvalid
        "account permission override" := rfl

/-- An end is given by its moment, or by null. -/
private theorem givesEnd_endValue (m : Option Moment) : GivesEnd (some (endValue m)) m := by
  cases m with
  | none => exact .inr ⟨rfl, rfl⟩
  | some m => exact .inl rfl

section

variable (isGrant : Bool) (permission metadata : Value) (w : ValidityWindow)

/-- The entries of an override give its window. -/
private theorem givenBy_overrideEntries : w.GivenBy (overrideEntries isGrant permission
    ⟨endValue w.validFrom, endValue w.validUntil, metadata⟩) := by
  refine ⟨?_, ?_⟩
  · rw [overrideEntries, Value.find?_entriesOf]
    exact givesEnd_endValue w.validFrom
  · rw [overrideEntries, Value.find?_entriesOf]
    exact givesEnd_endValue w.validUntil

/-- Overrides that differ in their windows only have entries that do. -/
private theorem agreeBesideWindow_overrideEntries :
    AgreeBesideWindow
      (overrideEntries isGrant permission
        ⟨endValue w.validFrom, endValue w.validUntil, metadata⟩)
      (overrideEntries isGrant permission ⟨.null, .null, metadata⟩) := by
  intro name hname
  obtain ⟨hfrom, huntil⟩ : name ≠ "valid_from" ∧ name ≠ "valid_until" := by
    simpa [Schema.windowFields] using hname
  simp only [overrideEntries, Value.find?_entriesOf, Terms.fields, List.cons_append,
    List.nil_append, List.lookup_cons, beq_eq_false_iff_ne.mpr hfrom,
    beq_eq_false_iff_ne.mpr huntil]

/-- An override that is read is the grant or denial that it was given as. -/
private theorem isGrant_of_overrideEntries {terms : Terms} {o : Override}
    (h : Override.read (overrideEntries isGrant permission terms) = .ok o) :
    o.isGrant = isGrant := by
  obtain ⟨v, hv, hflag⟩ := Field.required_eq_ok.mp (Override.read_eq_ok.mp h).2.2.1
  rw [overrideEntries, Value.find?_entriesOf] at hv
  obtain rfl : Value.bool isGrant = v := Option.some.inj hv
  exact (Checked.ok.inj hflag).symm

end

namespace Registry

variable {r : Registry}

/-! ## Acceptance -/

/-- A role that is accepted without a window is refused with one exactly if that is not in order. -/
theorem define_role_of_window {id : Identifier} {v : Value} {es : Entries} {w : ValidityWindow}
    (hv : Schema.role.entries v = .ok es) (hw : w.GivenBy es)
    (hother : (r.define (.role id (.dictionary (withoutWindow es)))).isOk = true) :
    ((∃ issues, r.define (.role id v) = .error (.invalid "role" issues)) ↔ ¬ w.Ordered) ∧
      (w.Ordered → ∃ c, c.window = w ∧
        r.define (.role id v) = .ok (r.enter id.text (.role (.configured ⟨id, c, [], []⟩)))) := by
  obtain ⟨t, ht⟩ := Except.exists_of_isOk hother
  rw [define_eq] at ht
  obtain ⟨x, hx, hregister⟩ := Except.bind_eq_ok.mp ht
  obtain ⟨c, hc, hx⟩ := Except.bind_eq_ok.mp hx
  obtain rfl := Except.ok.inj hx
  have hc : RoleConfig.read (withoutWindow es) = .ok c := Checked.orInvalid_eq_ok.mp hc
  have hparse : RoleConfig.parse v = RoleConfig.read es := by
    rw [RoleConfig.parse_eq, hv]
    rfl
  have hiff := fun d : RoleConfig =>
    RoleConfig.read_eq_ok_iff_ordered (agreeBesideWindow_withoutWindow es) hw (d := d) hc
  simp only [define_eq, Definition.described, hparse]
  cases hread : RoleConfig.read es with
  | ok d =>
    obtain ⟨hordered, rfl⟩ := (hiff d).mp hread
    -- The name is the same, so that it is free for the one as for the other.
    obtain ⟨hfree, hfresh, -⟩ := register_eq_ok.mp hregister
    have hdone : r.register id (.role (.configured ⟨id, { c with window := w }, [], []⟩)) = .ok _ :=
      register_eq_ok.mpr ⟨hfree, hfresh, rfl⟩
    refine ⟨iff_of_false ?_ (not_not_intro hordered), fun _ => ⟨{ c with window := w }, rfl, hdone⟩⟩
    rintro ⟨issues, hfail⟩
    exact absurd (hdone.symm.trans hfail) (by simp)
  | bad issues =>
    have hnot : ¬ w.Ordered := fun hordered => by
      have hok := (hiff _).mpr ⟨hordered, rfl⟩
      simp [hread] at hok
    exact ⟨iff_of_true ⟨issues, rfl⟩ hnot, fun hordered => absurd hordered hnot⟩

/-- A grant or denial that is accepted without a window is refused with one exactly if that is
not in order. -/
theorem link_override_of_window {id : String} {isGrant : Bool} {permission metadata : Value}
    {w : ValidityWindow}
    (hother : (r.link (.override id isGrant permission ⟨.null, .null, metadata⟩)).isOk = true) :
    let given := Link.override id isGrant permission
      ⟨endValue w.validFrom, endValue w.validUntil, metadata⟩
    ((∃ issues, r.link given = .error (.invalid "account permission override" issues))
      ↔ ¬ w.Ordered) ∧
    (w.Ordered → ∃ o, o.window = w ∧ o.isGrant = isGrant ∧
      r.link given = .ok (r.extend .account id { overrides := [o] })) := by
  obtain ⟨t, ht⟩ := Except.exists_of_isOk hother
  rw [link_eq] at ht
  split at ht
  · next hid =>
    have hid : id ∈ r.keys .account := hid
    obtain ⟨x, hx, -⟩ := Except.map_eq_ok.mp ht
    obtain ⟨o, ho, -⟩ := Except.map_eq_ok.mp hx
    rw [overrideOf_eq, Checked.orInvalid_eq_ok] at ho
    -- What is accepted without a window is accepted with it just if it is in order.
    have hiff := fun p : Override => Override.read_eq_ok_iff_ordered
      (agreeBesideWindow_overrideEntries isGrant permission metadata w)
      (givenBy_overrideEntries isGrant permission metadata w) (p := p) ho
    have hgrant := isGrant_of_overrideEntries isGrant permission ho
    simp only [link_eq, Link.owner, hid, ↓reduceIte, Link.additions, overrideOf_eq]
    cases hread : Override.read (overrideEntries isGrant permission
        ⟨endValue w.validFrom, endValue w.validUntil, metadata⟩) with
    | ok p =>
      obtain ⟨hordered, rfl⟩ := (hiff p).mp hread
      refine ⟨iff_of_false ?_ (not_not_intro hordered),
        fun _ => ⟨{ o with window := w }, rfl, hgrant, rfl⟩⟩
      rintro ⟨issues, hfail⟩
      exact absurd hfail (by simp [Checked.orInvalid, Except.map])
    | bad issues =>
      have hnot : ¬ w.Ordered := fun hordered => by
        have hok := (hiff _).mpr ⟨hordered, rfl⟩
        simp [hread] at hok
      exact ⟨iff_of_true ⟨issues, rfl⟩ hnot, fun hordered => absurd hordered hnot⟩
  · simp at ht

/-! ## Rows -/

section

variable (hr : r.Reachable) (hn : isSchemaName r.names.schema = true)

include hr hn

/-- What is written for a role records both ends of its window, in order unless a clock is changed
between them. -/
private theorem recordsWindow_of_role {o : Role} (ho : .role (.configured o) ∈ r.entities)
    {emission : Emission} (hemit : Role.emit r.names (.configured o) = .ok emission)
    {a b : Moment} (hwindow : o.config.window = ⟨some a, some b⟩) :
    RecordsWindow emission.texts (r.names.table Tables.roles) a.instant b.instant ∧
      (a.Steady b → a.instant < b.instant) := by
  have hconforms : Entity.Conforms (.role (.configured o)) := hr.conforms.entity ho rfl
  cases hconforms with
  | role _ hconfig _ =>
    -- A name within its bounds is not empty, so that the row has its key.
    have hname : o.name ≠ "" := by
      have hlength : 1 ≤ o.name.length := hconfig.labelled.name.1
      intro heq
      simp [heq] at hlength
    have hordered : o.config.window.Ordered := hconfig.window
    rw [hwindow] at hordered
    refine ⟨(o.records hn hname hemit).recordsWindow (w := o.config.window) (fun x hx => ?_)
      (by rw [hwindow]) (by rw [hwindow]), (hordered a rfl b rfl).2.1⟩
    -- The ends are the first fields of a role.
    rw [RoleConfig.fields, Content.ofFields, List.map_append]
    exact List.mem_append_left _ hx

/-- What is written for an override records both ends of its window, in order unless a clock is
changed between them. -/
private theorem recordsWindow_of_override {account : Account}
    (haccount : .account (.configured account) ∈ r.entities) {o : Override}
    (ho : o ∈ account.overrides) {emission : Emission}
    (hemit : spreadRow (o.row r.names (account.lookup r.names)) = .ok emission) {a b : Moment}
    (hwindow : o.window = ⟨some a, some b⟩) :
    RecordsWindow emission.texts (r.names.table Tables.accountPermissions) a.instant b.instant ∧
      (a.Steady b → a.instant < b.instant) := by
  have hconforms : Entity.Conforms (.account (.configured account)) :=
    hr.conforms.entity haccount rfl
  cases hconforms with
  | account _ _ _ hoverrides =>
    have hordered : o.window.Ordered := (hoverrides o ho).window
    rw [hwindow] at hordered
    refine ⟨(o.records hn hemit).recordsWindow (w := o.window) (fun x hx => ?_)
      (by rw [hwindow]) (by rw [hwindow]), (hordered a rfl b rfl).2.1⟩
    -- Of the fields only the name of the permission stands in the row as a reference.
    refine List.mem_cons_of_mem _ (List.mem_cons_of_mem _ ?_)
    obtain ⟨f, hf, rfl⟩ := List.mem_map.mp hx
    refine List.mem_map_of_mem (List.mem_filter.mpr ⟨List.mem_append_left _ hf, ?_⟩)
    rcases List.mem_cons.mp hf with rfl | hf
    · rfl
    · obtain rfl := List.mem_singleton.mp hf
      rfl

end

/-- Ten o'clock on the first of March 2026, 5:30 east of UTC, to five o'clock in UTC: half an hour,
although the clock shows an earlier time at its end. -/
def eastWindow : ValidityWindow :=
  ⟨some ⟨⟨2026, 3, 1, rfl⟩, ⟨36000000000, by omega⟩, some (.given ⟨19800, by omega⟩), false⟩,
    some ⟨⟨2026, 3, 1, rfl⟩, ⟨18000000000, by omega⟩, some .utc, false⟩⟩

/-- A role with a window. -/
def keeper (w : ValidityWindow) : Entries :=
  Schema.entriesOf (("name", .text "keeper") :: w.fields)

/-- The entries of the sample role give its window. -/
private theorem givenBy_keeper (w : ValidityWindow) : w.GivenBy (keeper w) := by
  refine ⟨?_, ?_⟩
  · rw [keeper, Value.find?_entriesOf]
    exact givesEnd_endValue w.validFrom
  · rw [keeper, Value.find?_entriesOf]
    exact givesEnd_endValue w.validUntil

/-- The sample with a role of the given window. -/
def keptSample (w : ValidityWindow) : Registry :=
  (sample.run [.define (.role "k" (.dictionary (keeper w)))]).1

/-- The row of the role with the window can be written. -/
def keptIsWritten (w : ValidityWindow) : Bool :=
  (keptSample w).roles.toList.any fun e => e.elim
    (fun o => decide (o.config.window = w) && (Role.emit (keptSample w).names (.configured o)).isOk)
    fun _ => false

/-- The test that the sample role is written, as a property. -/
private theorem exists_of_keptIsWritten {w : ValidityWindow} (h : keptIsWritten w = true) :
    ∃ o emission, .role (.configured o) ∈ (keptSample w).entities ∧ o.config.window = w ∧
      Role.emit (keptSample w).names (.configured o) = .ok emission := by
  obtain ⟨e, he, hok⟩ := List.any_eq_true.mp h
  -- The test is true of a configured role only.
  cases e with
  | configured o =>
    rw [Entry.elim, Bool.and_eq_true, decide_eq_true_eq] at hok
    obtain ⟨hwindow, hok⟩ := hok
    obtain ⟨emission, hemit⟩ := Except.exists_of_isOk hok
    exact ⟨o, emission, List.mem_flatMap.mpr ⟨.role, by decide, List.mem_map_of_mem he⟩, hwindow,
      hemit⟩
  | scripted script => simp [Entry.elim] at hok

/-- The sample with the role is reachable. -/
private theorem reachable_keptSample (w : ValidityWindow) : (keptSample w).Reachable :=
  ((Reachable.empty _).run _).run _

/-- A window of a quarter of an hour on the clock of Berlin, in the hour that it shows twice: it
starts in the second pass and ends in the first. -/
def repeatedHour : ValidityWindow := ⟨some Moment.quarterPast, some Moment.halfPast⟩

end Registry

end AccessGraph
