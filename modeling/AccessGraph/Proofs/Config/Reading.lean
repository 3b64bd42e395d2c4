import AccessGraph.Entity.Basic

/-!
# What an accepted configuration is made of

A configuration that was read holds, field by field, what the checks of the fields gave.  The lemmas
`*.read_eq_ok` take the reading of a configuration apart; from them follows that every name that was
accepted has at least one character.
-/

namespace AccessGraph

/-! ## Combined checks -/

namespace Checked

variable {α β : Type}

/-- Two checks give a result together just if each gives one. -/
theorem seq_eq_ok {f : Checked (α → β)} {x : Checked α} {b : β} :
    f <*> x = .ok b ↔ ∃ g, f = .ok g ∧ ∃ a, x = .ok a ∧ g a = b := by
  show both f x = .ok b ↔ _
  cases f <;> cases x <;> simp [both]

/-- What holds of a combined check, with the first of the combined checks taken out in front. -/
theorem exists_seq_ok {f : Checked (α → β)} {x : Checked α} {p : β → Prop} :
    (∃ b, f <*> x = .ok b ∧ p b) ↔ ∃ g, f = .ok g ∧ ∃ a, x = .ok a ∧ p (g a) := by
  show (∃ b, both f x = .ok b ∧ p b) ↔ _
  cases f <;> cases x <;> simp [both]

/-- There is something made of a result that has a property just if there is a result for which
that is so. -/
theorem exists_map_ok {f : α → β} {x : Checked α} {p : β → Prop} :
    (∃ b, f <$> x = .ok b ∧ p b) ↔ ∃ a, x = .ok a ∧ p (f a) := by
  show (∃ b, both (.ok f) x = .ok b ∧ p b) ↔ _
  cases x <;> simp [both]

theorem map_eq_ok {f : α → β} {x : Checked α} {b : β} :
    f <$> x = .ok b ↔ ∃ a, x = .ok a ∧ f a = b := by
  show both (.ok f) x = .ok b ↔ _
  cases x <;> simp [both]

/-- Two steps give a result just if each of them does. -/
theorem andThen_eq_ok {c : Checked α} {f : α → Checked β} {b : β} :
    c.andThen f = .ok b ↔ ∃ a, c = .ok a ∧ f a = .ok b := by
  cases c <;> simp [andThen]

theorem under_eq_ok {part : String} {c : Checked α} {a : α} :
    c.under part = .ok a ↔ c = .ok a := by
  cases c <;> simp [under]

/-- A final check gives what it was given, if it finds no fault. -/
theorem sound_eq_ok {fault? : α → Option Cause} {a b : α} :
    sound fault? a = .ok b ↔ fault? a = none ∧ a = b := by
  unfold sound
  split
  · next cause hfault => simp [hfault, fail]
  · next hfault => simp [hfault]

end Checked

namespace Field

variable {α : Type}

/-- A required field is given and passes its check. -/
theorem required_eq_ok {es : Entries} {name : String} {check : Check α} {a : α} :
    required es name check = .ok a ↔ ∃ v, Value.find? es name = some v ∧ check v = .ok a := by
  unfold required
  split
  · next v hv => simp [hv, Checked.under_eq_ok]
  · next hnone => simp [hnone, Checked.fail, Checked.under]

/-- What is not null is checked. -/
theorem nullable_of_ne_null {check : Check α} {v : Value} (h : v ≠ .null) :
    nullable check v = (check v).map some := by
  cases v with
  | null => exact absurd rfl h
  | _ => rfl

/-- A bounded text is passed on as it is; its lower bound is checked first. -/
theorem boundedText_eq_ok {least : Nat} {most : Option Nat} {v : Value} {s : String} :
    boundedText least most v = .ok s ↔
      text v = .ok s ∧ least ≤ s.length ∧ ∀ n ∈ most, s.length ≤ n := by
  simp only [boundedText, Checked.andThen_eq_ok]
  constructor
  · intro h
    obtain ⟨t, ht, hbounds⟩ := h
    -- Too short a text is told before too long a one.
    split at hbounds
    · simp [Checked.fail] at hbounds
    · next hleast =>
      cases most with
      | none =>
        obtain rfl := Checked.ok.inj hbounds
        exact ⟨ht, Nat.not_lt.mp hleast, by simp⟩
      | some n =>
        by_cases hmost : n < t.length
        · simp [hmost, Checked.fail] at hbounds
        · obtain rfl : t = s := by simpa [hmost] using hbounds
          exact ⟨ht, Nat.not_lt.mp hleast, by simpa using hmost⟩
  · intro h
    obtain ⟨ht, hleast, hmost⟩ := h
    refine ⟨s, ht, ?_⟩
    -- Neither bound is broken, so the text is taken.
    rw [if_neg (Nat.not_lt.mpr hleast)]
    cases most with
    | none => rfl
    | some n => exact if_neg (Nat.not_lt.mpr (hmost n rfl))

/-- A text that passes its bounds has at least the least number of characters. -/
private theorem least_of_boundedText {least : Nat} {most : Option Nat} {v : Value} {s : String}
    (h : boundedText least most v = .ok s) : least ≤ s.length := (boundedText_eq_ok.mp h).2.1

/-- A text of at least one character is not empty. -/
private theorem ne_empty_of_boundedText {most : Option Nat} {v : Value} {s : String}
    (h : boundedText 1 most v = .ok s) : s ≠ "" := by
  have hlength := least_of_boundedText h
  intro heq
  subst heq
  simp at hlength

end Field

/-- A name that was read is not empty. -/
private theorem ne_empty_of_nameField {es : Entries} {most : Nat} {s : String}
    (h : nameField es most = .ok s) : s ≠ "" := by
  obtain ⟨v, -, hv⟩ := Field.required_eq_ok.mp h
  exact Field.ne_empty_of_boundedText hv

/-! ## The configurations -/

/-- The ends of a window are read one by one. -/
theorem ValidityWindow.ends_eq_ok {es : Entries} {w : ValidityWindow} :
    ends es = .ok w ↔
      Field.optional es "valid_from" none (Field.nullable Field.moment) = .ok w.validFrom ∧
        Field.optional es "valid_until" none (Field.nullable Field.moment) = .ok w.validUntil := by
  rw [ends, Checked.seq_eq_ok]
  simp only [Checked.exists_map_ok]
  constructor
  · rintro ⟨_, hfrom, _, huntil, rfl⟩
    exact ⟨hfrom, huntil⟩
  · rintro ⟨hfrom, huntil⟩
    exact ⟨_, hfrom, _, huntil, rfl⟩

/-- A window is read if its ends are and it has no fault. -/
theorem ValidityWindow.read_eq_ok {es : Entries} {w : ValidityWindow} :
    read es = .ok w ↔ ends es = .ok w ∧ w.fault? = none := by
  simp only [read, Checked.andThen_eq_ok, Checked.sound_eq_ok]
  constructor
  · rintro ⟨_, hends, hfault, rfl⟩
    exact ⟨hends, hfault⟩
  · rintro ⟨hends, hfault⟩
    exact ⟨_, hends, hfault, rfl⟩

/-- A group is read if each of its fields is. -/
theorem GroupConfig.read_eq_ok {es : Entries} {c : GroupConfig} :
    read es = .ok c ↔ nameField es 100 = .ok c.name ∧
      descriptionField es = .ok c.description ∧ metadataField es = .ok c.metadata := by
  rw [read, Checked.seq_eq_ok]
  -- Each field is read on its own, and the configuration is put together at the end.
  simp only [Checked.exists_seq_ok, Checked.exists_map_ok]
  constructor
  · intro h
    obtain ⟨_, hname, _, hdescription, _, hmetadata, rfl⟩ := h
    exact ⟨hname, hdescription, hmetadata⟩
  · intro h
    obtain ⟨hname, hdescription, hmetadata⟩ := h
    exact ⟨_, hname, _, hdescription, _, hmetadata, rfl⟩

/-- A role is read if each of its fields is and its window has no fault. -/
theorem RoleConfig.read_eq_ok {es : Entries} {c : RoleConfig} :
    read es = .ok c ↔ ValidityWindow.ends es = .ok c.window ∧ nameField es 50 = .ok c.name ∧
      descriptionField es = .ok c.description ∧
      Field.optional es "rank" 0 (Field.boundedInt 0 100) = .ok c.rank ∧
      metadataField es = .ok c.metadata ∧ c.window.fault? = none := by
  rw [read, Checked.andThen_eq_ok]
  -- The fields are read on their own, and the window is checked behind all of them.
  simp only [Checked.exists_seq_ok, Checked.exists_map_ok, Checked.sound_eq_ok]
  constructor
  · intro h
    obtain ⟨_, hwindow, _, hname, _, hdescription, _, hrank, _, hmetadata, hfault, rfl⟩ := h
    exact ⟨hwindow, hname, hdescription, hrank, hmetadata, hfault⟩
  · intro h
    obtain ⟨hwindow, hname, hdescription, hrank, hmetadata, hfault⟩ := h
    exact ⟨_, hwindow, _, hname, _, hdescription, _, hrank, _, hmetadata, hfault, rfl⟩

/-- An override is read if each of its fields is and its window has no fault. -/
theorem Override.read_eq_ok {es : Entries} {o : Override} :
    read es = .ok o ↔ ValidityWindow.ends es = .ok o.window ∧
      Field.required es "permission_name" (Field.boundedText 1 none) = .ok o.permissionName ∧
      Field.required es "is_grant" Field.flag = .ok o.isGrant ∧
      metadataField es = .ok o.metadata ∧ o.window.fault? = none := by
  rw [read, Checked.andThen_eq_ok]
  -- The fields are read on their own, and the window is checked behind all of them.
  simp only [Checked.exists_seq_ok, Checked.exists_map_ok, Checked.sound_eq_ok]
  constructor
  · intro h
    obtain ⟨_, hwindow, _, hname, _, hgrant, _, hmetadata, hfault, rfl⟩ := h
    exact ⟨hwindow, hname, hgrant, hmetadata, hfault⟩
  · intro h
    obtain ⟨hwindow, hname, hgrant, hmetadata, hfault⟩ := h
    exact ⟨_, hwindow, _, hname, _, hgrant, _, hmetadata, hfault, rfl⟩

/-- A role assignment is read if each of its fields is and its window has no fault. -/
theorem Assignment.read_eq_ok {es : Entries} {a : Assignment} :
    read es = .ok a ↔ ValidityWindow.ends es = .ok a.window ∧
      Field.required es "group_id" Field.text = .ok a.groupId ∧
      metadataField es = .ok a.metadata ∧ a.window.fault? = none := by
  rw [read, Checked.andThen_eq_ok]
  -- The fields are read on their own, and the window is checked behind all of them.
  simp only [Checked.exists_seq_ok, Checked.exists_map_ok, Checked.sound_eq_ok]
  constructor
  · intro h
    obtain ⟨_, hwindow, _, hgroup, _, hmetadata, hfault, rfl⟩ := h
    exact ⟨hwindow, hgroup, hmetadata, hfault⟩
  · intro h
    obtain ⟨hwindow, hgroup, hmetadata, hfault⟩ := h
    exact ⟨_, hwindow, _, hgroup, _, hmetadata, hfault, rfl⟩

/-- A system permission is read if its tag is right and each of its fields is read. -/
theorem SystemPermission.read_eq_ok {es : Entries} {p : SystemPermission} :
    read es = .ok p ↔ tag es "system" = .ok () ∧ nameField es 100 = .ok p.name ∧
      descriptionField es = .ok p.description ∧
      Field.required es "system_resource" (Field.word Resource.values Resource.text)
        = .ok p.resource ∧
      Field.required es "action" (Field.word Action.values Action.text) = .ok p.action ∧
      metadataField es = .ok p.metadata := by
  rw [read, Checked.seq_eq_ok]
  -- The tag is checked as a field whose value is dropped.
  simp only [Checked.exists_seq_ok, Checked.exists_map_ok]
  constructor
  · intro h
    obtain ⟨_, htag, _, hname, _, hdescription, _, hresource, _, haction, _, hmetadata, rfl⟩ := h
    exact ⟨htag, hname, hdescription, hresource, haction, hmetadata⟩
  · intro h
    obtain ⟨htag, hname, hdescription, hresource, haction, hmetadata⟩ := h
    exact ⟨_, htag, _, hname, _, hdescription, _, hresource, _, haction, _, hmetadata, rfl⟩

/-- A data permission is read if its tag is right, each of its fields is read and it has a location
where one is due. -/
theorem DataPermission.read_eq_ok {es : Entries} {p : DataPermission} :
    read es = .ok p ↔ tag es "data" = .ok () ∧ nameField es 100 = .ok p.name ∧
      descriptionField es = .ok p.description ∧
      Field.required es "scope" (Field.word Scope.values Scope.text) = .ok p.scope ∧
      Field.required es "action" (Field.word Action.values Action.text) = .ok p.action ∧
      qualifierField es "schema_name" = .ok p.schemaName ∧
      qualifierField es "table_name" = .ok p.tableName ∧
      qualifierField es "column_name" = .ok p.columnName ∧
      tableField es "constraints" = .ok p.constraints ∧
      tableField es "conditions" = .ok p.conditions ∧
      metadataField es = .ok p.metadata ∧ p.fault? = none := by
  rw [read, Checked.andThen_eq_ok]
  -- The tag is dropped, and the location is checked behind all fields.
  simp only [Checked.exists_seq_ok, Checked.exists_map_ok, Checked.sound_eq_ok]
  constructor
  · intro h
    obtain ⟨_, htag, _, hname, _, hdescription, _, hscope, _, haction, _, hschema, _, htable, _,
      hcolumn, _, hconstraints, _, hconditions, _, hmetadata, hfault, rfl⟩ := h
    exact ⟨htag, hname, hdescription, hscope, haction, hschema, htable, hcolumn, hconstraints,
      hconditions, hmetadata, hfault⟩
  · intro h
    obtain ⟨htag, hname, hdescription, hscope, haction, hschema, htable, hcolumn, hconstraints,
      hconditions, hmetadata, hfault⟩ := h
    exact ⟨_, htag, _, hname, _, hdescription, _, hscope, _, haction, _, hschema, _, htable, _,
      hcolumn, _, hconstraints, _, hconditions, _, hmetadata, hfault, rfl⟩

/-- An account is read if its metadata is. -/
theorem AccountConfig.read_eq_ok {es : Entries} {c : AccountConfig} :
    read es = .ok c ↔ metadataField es = .ok c.metadata := by
  rw [read, Checked.map_eq_ok]
  constructor
  · intro h
    obtain ⟨_, hmetadata, rfl⟩ := h
    exact hmetadata
  · intro h
    exact ⟨_, h, rfl⟩

/-- The tag selects the schema by which a permission is read. -/
theorem PermissionConfig.eq_of_read {es : Entries} {c : PermissionConfig} (h : read es = .ok c) :
    (∃ p, SystemPermission.read es = .ok p ∧ c = .system p) ∨
      ∃ p, DataPermission.read es = .ok p ∧ c = .data p := by
  obtain ⟨s, -, hread⟩ := Checked.andThen_eq_ok.mp h
  have hread := Checked.under_eq_ok.mp hread
  split at hread
  · obtain ⟨p, hp, rfl⟩ := Checked.map_eq_ok.mp hread
    exact .inl ⟨p, hp, rfl⟩
  · obtain ⟨p, hp, rfl⟩ := Checked.map_eq_ok.mp hread
    exact .inr ⟨p, hp, rfl⟩

/-- What is no dictionary and no record describes no permission. -/
theorem PermissionConfig.reject_ne_ok {α : Type} (v : Value) (a : α) : reject v ≠ .ok a := by
  unfold reject
  split
  · next es _ =>
    intro h
    obtain ⟨s, -, hfail⟩ := Checked.andThen_eq_ok.mp h
    simp [Checked.fail, Checked.under] at hfail
  · simp [Checked.fail]

/-- A permission that is accepted was read from some entries. -/
theorem PermissionConfig.exists_read {v : Value} {c : PermissionConfig} (h : parse v = .ok c) :
    ∃ es, read es = .ok c := by
  unfold parse at h
  split at h
  · exact ⟨_, h⟩
  · exact ⟨_, h⟩
  · exact absurd h (reject_ne_ok _ c)

/-! ## Instances that are returned as they are

An instance is put together from the fields that its record holds, which is what reading them again
would give.
-/

namespace Schema

/-- A schema is one of itself, and three schemas extend that of a window. -/
theorem isA_iff {s t : Schema} :
    s.isA t = true ↔ s = t ∨ t = .window ∧ (s = .override ∨ s = .role ∨ s = .assignment) := by
  cases s <;> cases t <;> decide

/-- The configuration of the instance that a schema reads is what it reads as a configuration. -/
theorem config_read (s : Schema) (es : Entries) :
    Instance.config <$> s.read es = s.readConfig es := by
  unfold read
  split
  · next h => exact h.symm
  · next h => exact h.symm

/-- Either way a value gives what its entries are read as. -/
theorem parse_eq (s : Schema) (v : Value) :
    s.parse v = (s.entries v).andThen (s.target v).read := by
  unfold parse
  cases v with
  | record t given =>
    by_cases hisA : t.isA s = true
    · simp only [ownInstance?, entries, target, hisA, ↓reduceIte, Checked.andThen]
      cases t.read (entriesOf given) <;> rfl
    · simp only [ownInstance?, hisA, Bool.false_eq_true, ↓reduceIte]
  | _ => rfl

/-- The same for the configurations of one kind, which a schema reads as `wrap` says. -/
theorem take_eq {α : Type} (s : Schema) (wrap : α → Config) {held? : Config → Option α}
    {read : Entries → Checked α} (hread : ∀ es, s.readConfig es = wrap <$> read es)
    (hheld : ∀ a, held? (wrap a) = some a) (hs : s ≠ .window) (v : Value) :
    s.take held? read v = (s.entries v).andThen read := by
  unfold take
  cases v with
  | record t given =>
    by_cases hisA : t.isA s = true
    · -- Only the schema of windows is extended by others.
      obtain rfl : t = s := (isA_iff.mp hisA).resolve_right fun h => hs h.1
      have hconfig := config_read t (entriesOf given)
      rw [hread] at hconfig
      simp only [ownInstance?, entries, hisA, ↓reduceIte, Checked.andThen]
      cases hi : t.read (entriesOf given) with
      | ok i =>
        obtain ⟨a, ha, hwrap⟩ := Checked.map_eq_ok.mp (hi ▸ hconfig).symm
        simp [Checked.value?, ← hwrap, hheld, ha]
      | bad issues => rfl
    · simp only [ownInstance?, hisA, Bool.false_eq_true, ↓reduceIte, Option.bind_none]
  | _ => rfl

end Schema

/-- An account is read from its entries, or from those that an instance was made of. -/
theorem AccountConfig.parse_eq (v : Value) : parse v = (Schema.account.entries v).andThen read :=
  Schema.take_eq .account Config.account (fun _ => rfl) (fun _ => rfl) (by decide) v

/-- An override is read from its entries, or from those that an instance was made of. -/
theorem Override.parse_eq (v : Value) : parse v = (Schema.override.entries v).andThen read :=
  Schema.take_eq .override Config.override (fun _ => rfl) (fun _ => rfl) (by decide) v

theorem GroupConfig.parse_eq (v : Value) : parse v = (Schema.group.entries v).andThen read :=
  Schema.take_eq .group Config.group (fun _ => rfl) (fun _ => rfl) (by decide) v

theorem RoleConfig.parse_eq (v : Value) : parse v = (Schema.role.entries v).andThen read :=
  Schema.take_eq .role Config.role (fun _ => rfl) (fun _ => rfl) (by decide) v

theorem Assignment.parse_eq (v : Value) : parse v = (Schema.assignment.entries v).andThen read :=
  Schema.take_eq .assignment Config.assignment (fun _ => rfl) (fun _ => rfl) (by decide) v

/-! ## Names -/

/-- No group has an empty name. -/
theorem GroupConfig.name_ne_empty {v : Value} {c : GroupConfig} (h : parse v = .ok c) :
    c.name ≠ "" := by
  obtain ⟨es, -, hread⟩ := Checked.andThen_eq_ok.mp (parse_eq v ▸ h)
  exact ne_empty_of_nameField (read_eq_ok.mp hread).1

theorem RoleConfig.name_ne_empty {v : Value} {c : RoleConfig} (h : parse v = .ok c) :
    c.name ≠ "" := by
  obtain ⟨es, -, hread⟩ := Checked.andThen_eq_ok.mp (parse_eq v ▸ h)
  exact ne_empty_of_nameField (read_eq_ok.mp hread).2.1

/-- No override is of a permission with an empty name. -/
theorem Override.permissionName_ne_empty {v : Value} {o : Override} (h : parse v = .ok o) :
    o.permissionName ≠ "" := by
  obtain ⟨es, -, hread⟩ := Checked.andThen_eq_ok.mp (parse_eq v ▸ h)
  obtain ⟨w, -, hname⟩ := Field.required_eq_ok.mp (read_eq_ok.mp hread).2.1
  exact Field.ne_empty_of_boundedText hname

/-- No permission has an empty name. -/
theorem PermissionConfig.name_ne_empty {v : Value} {c : PermissionConfig} (h : parse v = .ok c) :
    c.name ≠ "" := by
  obtain ⟨es, hread⟩ := exists_read h
  rcases eq_of_read hread with ⟨p, hp, rfl⟩ | ⟨p, hp, rfl⟩
  · exact ne_empty_of_nameField (SystemPermission.read_eq_ok.mp hp).2.1
  · exact ne_empty_of_nameField (DataPermission.read_eq_ok.mp hp).2.1

end AccessGraph
