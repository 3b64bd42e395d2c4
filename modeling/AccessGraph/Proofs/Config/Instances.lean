import AccessGraph.Proofs.Config.Entries
import AccessGraph.Proofs.Lists

/-!
# Instances that values describe

What a value describes is an instance: a configuration together with the names of the fields that
were given.  For a permission of either kind this is `PermissionConfig.parseInstance`, of which
`PermissionConfig.parse` is the configuration (`SchemaChoice.config_instances`).  An instance has
the fields of its schema, and what was not given is not among the entries it was read from.
-/

namespace AccessGraph

namespace Checked

variable {α β γ : Type}

theorem map_bad (f : α → β) (is : List Issue) : f <$> (Checked.bad is : Checked α) = .bad is := rfl

theorem map_map (f : β → γ) (g : α → β) (x : Checked α) : f <$> g <$> x = (f ∘ g) <$> x := by
  cases x <;> rfl

/-- What is made of the result of two steps is made in the second. -/
theorem map_andThen (f : β → γ) (x : Checked α) (g : α → Checked β) :
    f <$> x.andThen g = x.andThen fun a => f <$> g a := by
  cases x <;> rfl

theorem map_under (f : α → β) (part : String) (x : Checked α) :
    f <$> x.under part = (f <$> x).under part := by
  cases x <;> rfl

end Checked

/-! ## The permission of either kind as an instance -/

namespace PermissionConfig

/-- The instance that entries describe, of the schema that their tag selects. -/
def readInstance (es : Entries) : Checked Instance :=
  (selectSchema es).andThen fun s => (s.read es).under (tagOf s)

/-- The instance of a permission that a value describes. -/
def parseInstance : Value → Checked Instance
  | .dictionary es => readInstance es
  | .record _ given => readInstance (Value.unfoldedFields given)
  | v => reject v

/-- What a rejected value would be is of no account. -/
theorem map_reject {α β : Type} (f : α → β) (v : Value) : f <$> reject v = reject v := by
  unfold reject
  split
  · cases selectSchema _ <;> rfl
  · rfl

/-- A schema is selected just if it is the schema of a tag that is there. -/
theorem selectSchema_eq_ok {es : Entries} {s : Schema} :
    selectSchema es = .ok s ↔
      ∃ tag, Value.find? es tagField = some tag ∧ schemaOfTag? tag = some s := by
  unfold selectSchema
  cases hfind : Value.find? es tagField with
  | none => simp [Checked.fail]
  | some tag =>
    cases hschema : schemaOfTag? tag with
    | none => simp [hschema, Checked.fail]
    | some t => simp [hschema]

/-- A tag selects one of the two schemas of permissions, and names it. -/
theorem schemaOfTag?_eq_some {tag : Value} {s : Schema} (h : schemaOfTag? tag = some s) :
    (s = .systemPermission ∨ s = .dataPermission) ∧ tag.text? = some (tagOf s) := by
  unfold schemaOfTag? at h
  split at h
  · next htext =>
    obtain rfl := Option.some.inj h
    exact ⟨.inl rfl, htext⟩
  · next htext =>
    obtain rfl := Option.some.inj h
    exact ⟨.inr rfl, htext⟩
  · simp at h

end PermissionConfig

namespace SchemaChoice

/-- The instance that a value is or describes. -/
def instances (c : SchemaChoice) (v : Value) : Checked Instance :=
  match c with
  | .schema s => s.parse v
  | .permission => PermissionConfig.parseInstance v

/-- The schema that is asked for: a permission may be of either of two. -/
def Asks (c : SchemaChoice) (s : Schema) : Prop :=
  match c with
  | .schema t => t = s
  | .permission => s = .systemPermission ∨ s = .dataPermission

end SchemaChoice

/-- An instance that was read has the configuration that its schema reads. -/
theorem PermissionConfig.config_readInstance (es : Entries) :
    Instance.config <$> readInstance es = PermissionConfig.config <$> read es := by
  rw [readInstance, read, Checked.map_andThen, Checked.map_andThen]
  cases hselect : selectSchema es with
  | bad is => rfl
  | ok s =>
    -- The schema of a tag is one of two, and each reads permissions of its sort.
    simp only [Checked.andThen, Checked.map_under, Schema.config_read]
    obtain ⟨tag, -, htag⟩ := selectSchema_eq_ok.mp hselect
    rcases (schemaOfTag?_eq_some htag).1 with rfl | rfl
    · rw [if_pos rfl, Checked.map_map]
      rfl
    · rw [if_neg (by decide), Checked.map_map]
      rfl

/-- The configuration that a value describes is that of the instance it describes. -/
theorem SchemaChoice.config_instances (c : SchemaChoice) (v : Value) :
    Instance.config <$> c.instances v = c.parse v := by
  cases c with
  | schema s => rfl
  | permission =>
    show Instance.config <$> PermissionConfig.parseInstance v
      = PermissionConfig.config <$> PermissionConfig.parse v
    -- A dictionary and an instance are read by their entries; anything else is refused alike.
    cases v with
    | dictionary es => exact PermissionConfig.config_readInstance es
    | record t given => exact PermissionConfig.config_readInstance (Value.unfoldedFields given)
    | _ =>
      simp only [PermissionConfig.parseInstance, PermissionConfig.parse,
        PermissionConfig.map_reject]

/-! ## The fields of an instance -/

/-- No schema has two fields of one name. -/
theorem Schema.nodup_fieldNames (s : Schema) : s.fieldNames.Nodup := by
  cases s <;> decide

namespace Config

/-- The fields of a configuration are those of its schema, in order. -/
theorem names_fields (c : Config) : c.fields.map Prod.fst = c.schema.fieldNames := by
  cases c <;> rfl

/-- Each field of a configuration is found under its name. -/
theorem lookup_fields {c : Config} {f : String × Value} (h : f ∈ c.fields) :
    c.fields.lookup f.1 = some f.2 :=
  lookup_of_nodup (c.names_fields ▸ c.schema.nodup_fieldNames) h

end Config

/-- What a schema reads is of that schema. -/
theorem Schema.schema_of_readConfig {s : Schema} {es : Entries} {c : Config}
    (h : s.readConfig es = .ok c) : c.schema = s := by
  cases s <;> obtain ⟨x, -, rfl⟩ := Checked.map_eq_ok.mp h <;> rfl

/-- The names of the given fields are those of the fields that the entries hold. -/
theorem Schema.read_eq_ok {s : Schema} {es : Entries} {i : Instance} :
    s.read es = .ok i ↔ s.readConfig es = .ok i.config ∧
      i.given = s.fieldNames.filter fun f => (Value.find? es f).isSome := by
  obtain ⟨c, given, haccepted⟩ := i
  unfold Schema.read
  split
  · next d hd =>
    simp only [hd, Checked.ok.injEq, Instance.mk.injEq, Schema.givenNames, @eq_comm _ given]
  · next hd => simp [hd]

theorem Schema.isA_refl (s : Schema) : s.isA s = true := by
  cases s <;> rfl

/-- Where a value describes an instance of a schema, it is read from entries by a schema that
extends it. -/
theorem Schema.exists_read_of_parse {s : Schema} {v : Value} {i : Instance}
    (h : s.parse v = .ok i) :
    i.config.schema.isA s = true ∧ ∃ es, i.config.schema.read es = .ok i := by
  obtain ⟨es, -, hread⟩ := Checked.andThen_eq_ok.mp (parse_eq s v ▸ h)
  -- What was read is of the schema that was aimed at, which is an extension if an instance of one
  -- was given.
  have hschema : i.config.schema = s.target v := schema_of_readConfig (read_eq_ok.mp hread).1
  refine ⟨?_, es, hschema ▸ hread⟩
  rw [hschema]
  unfold target
  split
  · next t _ =>
    split
    · assumption
    · exact isA_refl s
  · exact isA_refl s

/-- Where a value describes a permission, its instance is read from entries by the schema of the
one kind or the other. -/
theorem PermissionConfig.exists_read_of_parseInstance {v : Value} {i : Instance}
    (h : parseInstance v = .ok i) :
    (i.config.schema = .systemPermission ∨ i.config.schema = .dataPermission) ∧
      ∃ es, i.config.schema.read es = .ok i := by
  have hread : ∃ es, readInstance es = .ok i := by
    unfold parseInstance at h
    split at h
    · exact ⟨_, h⟩
    · exact ⟨_, h⟩
    · exact absurd h (reject_ne_ok _ i)
  obtain ⟨es, hread⟩ := hread
  -- The tag selects the schema, and the issues of reading lie below the tag.
  obtain ⟨s, hselect, hread⟩ := Checked.andThen_eq_ok.mp hread
  have hread := Checked.under_eq_ok.mp hread
  obtain rfl := Schema.schema_of_readConfig (Schema.read_eq_ok.mp hread).1
  obtain ⟨tag, -, htag⟩ := selectSchema_eq_ok.mp hselect
  exact ⟨(schemaOfTag?_eq_some htag).1, es, hread⟩

end AccessGraph
