import AccessGraph.Config.Schemas

/-!
# Instances of schemas

An instance is a configuration that passed the checks of one of the schemas, together with the names
of the fields that were given.  `Schema.parse` checks a value against a schema; a record of that
schema, or of one that extends it, is an instance already and is returned as it is, and the given
fields of any other record are checked like those of a dictionary.  `Schema.build` is the same
without that leniency towards other records.

A permission is one of two kinds, told apart by its tag; `PermissionConfig.parse` reads the tag
first and reports the issues of the rest below it.  Only dictionaries and records describe a
permission, but objects of other sorts are asked for their tag as well, so they fail on the lack of
it or, with a tag, as no instance of the schema it selects.
-/

namespace AccessGraph

/-- The configuration of a permission of either kind. -/
inductive PermissionConfig where
  | system (p : SystemPermission)
  | data (p : DataPermission)

/-- The fields of a validity window. -/
def ValidityWindow.fields (w : ValidityWindow) : Table :=
  [("valid_from", w.validFrom.elim .null .moment), ("valid_until", w.validUntil.elim .null .moment)]

/-- A text that may be absent, as a value. -/
def optionText (s : Option String) : Value := s.elim .null .text

/-- A table that may be absent, as a value. -/
def optionTable (t : Option Table) : Value := t.elim .null .ofTable

/-- The fields of an account configuration. -/
def AccountConfig.fields (c : AccountConfig) : Table := [("metadata", .ofTable c.metadata)]

/-- The fields of a grant or denial. -/
def Override.fields (o : Override) : Table :=
  o.window.fields ++ [("permission_name", .text o.permissionName), ("is_grant", .bool o.isGrant),
    ("metadata", .ofTable o.metadata)]

/-- The fields of a group configuration. -/
def GroupConfig.fields (c : GroupConfig) : Table :=
  [("name", .text c.name), ("description", optionText c.description),
    ("metadata", .ofTable c.metadata)]

/-- The fields of a role configuration. -/
def RoleConfig.fields (c : RoleConfig) : Table :=
  c.window.fields ++ [("name", .text c.name), ("description", optionText c.description),
    ("rank", .int c.rank), ("metadata", .ofTable c.metadata)]

/-- The fields of the attachment of a group. -/
def Assignment.fields (a : Assignment) : Table :=
  a.window.fields ++ [("group_id", .text a.groupId), ("metadata", .ofTable a.metadata)]

/-- The fields of a permission on the administration system. -/
def SystemPermission.fields (p : SystemPermission) : Table :=
  [(tagField, .text "system"), ("name", .text p.name), ("description", optionText p.description),
    ("system_resource", .label (.resource p.resource)), ("action", .label (.action p.action)),
    ("metadata", .ofTable p.metadata)]

/-- The fields of a permission on application data. -/
def DataPermission.fields (p : DataPermission) : Table :=
  [(tagField, .text "data"), ("name", .text p.name), ("description", optionText p.description),
    ("scope", .label (.scope p.scope)), ("action", .label (.action p.action)),
    ("schema_name", optionText p.schemaName), ("table_name", optionText p.tableName),
    ("column_name", optionText p.columnName), ("constraints", optionTable p.constraints),
    ("conditions", optionTable p.conditions), ("metadata", .ofTable p.metadata)]

/-- A configuration of one of the schemas. -/
inductive Config where
  | window (c : ValidityWindow)
  | account (c : AccountConfig)
  | override (c : Override)
  | group (c : GroupConfig)
  | role (c : RoleConfig)
  | assignment (c : Assignment)
  | systemPermission (c : SystemPermission)
  | dataPermission (c : DataPermission)

namespace Config

/-- The schema of the configuration. -/
def schema : Config → Schema
  | .window _ => .window
  | .account _ => .account
  | .override _ => .override
  | .group _ => .group
  | .role _ => .role
  | .assignment _ => .assignment
  | .systemPermission _ => .systemPermission
  | .dataPermission _ => .dataPermission

/-- Every field, in the order of the schema. -/
def fields : Config → Table
  | .window c => c.fields
  | .account c => c.fields
  | .override c => c.fields
  | .group c => c.fields
  | .role c => c.fields
  | .assignment c => c.fields
  | .systemPermission c => c.fields
  | .dataPermission c => c.fields

/-- The configuration as a record whose fields are all set. -/
def toValue (c : Config) : Value := .record c.schema c.fields

end Config

/-- The configuration of a permission as one of the configurations. -/
def PermissionConfig.config : PermissionConfig → Config
  | .system p => .systemPermission p
  | .data p => .dataPermission p

namespace Schema

/-- Reads the fields of the schema from the entries of a dictionary. -/
def readConfig (s : Schema) (es : Entries) : Checked Config :=
  match s with
  | .window => Config.window <$> ValidityWindow.read es
  | .account => Config.account <$> AccountConfig.read es
  | .override => Config.override <$> Override.read es
  | .group => Config.group <$> GroupConfig.read es
  | .role => Config.role <$> RoleConfig.read es
  | .assignment => Config.assignment <$> Assignment.read es
  | .systemPermission => Config.systemPermission <$> SystemPermission.read es
  | .dataPermission => Config.dataPermission <$> DataPermission.read es

/-- The names of the fields of the schema that entries give. -/
def givenNames (s : Schema) (es : Entries) : List String :=
  s.fieldNames.filter fun f => (Value.find? es f).isSome

end Schema

/-- A configuration with the names of the fields that were given.  It was read from some entries, so
that it need not be checked again. -/
structure Instance where
  config : Config
  given : List String
  accepted : ∃ (s : Schema) (es : Entries), s.readConfig es = .ok config ∧ s.givenNames es = given

namespace Instance

/-- The instance as a record, which holds the given fields only. -/
def toValue (i : Instance) : Value :=
  .record i.config.schema (i.config.fields.filter fun f => i.given.contains f.1)

end Instance

namespace Schema

/-- Reads an instance from the entries of a dictionary. -/
def read (s : Schema) (es : Entries) : Checked Instance :=
  match h : s.readConfig es with
  | .ok c => .ok ⟨c, s.givenNames es, s, es, h, rfl⟩
  | .bad issues => .bad issues

/-- Fields as the entries of a dictionary. -/
def entriesOf (fields : Table) : Entries := fields.map fun (k, v) => (.text k, v)

/-- The entries by which a value describes an instance: those of a dictionary, or the given fields
of a record.  A record of another schema counts as a dictionary all the way down. -/
def entries (s : Schema) : Value → Checked Entries
  | .dictionary es => .ok es
  | .record t given =>
    if t.isA s then .ok (entriesOf given) else .ok (Value.unfoldedFields given)
  | _ => .fail (.notInstance s)

/-- The schema of the instance that a value describes: a record of a schema that extends the
expected one keeps its own. -/
def target (s : Schema) : Value → Schema
  | .record t _ => if t.isA s then t else s
  | _ => s

/-- The instance of the schema, or of one that extends it, that a value is.  A record holds the
values of the fields that were given, and stands for the instance of which these are the fields. -/
def ownInstance? (s : Schema) : Value → Option Instance
  | .record t given => if t.isA s then (t.read (entriesOf given)).value? else none
  | _ => none

/-- The instance that a value is or describes. -/
def parse (s : Schema) (v : Value) : Checked Instance :=
  match s.ownInstance? v with
  | some i => .ok i
  | none => (s.entries v).andThen (s.target v).read

/-- The instance that a value is or describes, where records of other schemas describe none. -/
def build (s : Schema) : Value → Checked Instance
  | .record t given => if t.isA s then s.parse (.record t given) else .fail (.notInstance s)
  | v => s.parse v

/-- The configuration of one kind that a value is or describes: an instance of the schema holds it
already, and otherwise it is read from entries. -/
def take {α : Type} (s : Schema) (held? : Config → Option α) (read : Entries → Checked α)
    (v : Value) : Checked α :=
  match (s.ownInstance? v).bind fun i => held? i.config with
  | some a => .ok a
  | none => (s.entries v).andThen read

end Schema

namespace Config

/-- The configuration of an account, if it is one. -/
def account? : Config → Option AccountConfig
  | .account c => some c
  | _ => none

/-- The grant or denial, if it is one. -/
def override? : Config → Option Override
  | .override c => some c
  | _ => none

/-- The configuration of a group, if it is one. -/
def group? : Config → Option GroupConfig
  | .group c => some c
  | _ => none

/-- The configuration of a role, if it is one. -/
def role? : Config → Option RoleConfig
  | .role c => some c
  | _ => none

/-- The attachment of a group, if it is one. -/
def assignment? : Config → Option Assignment
  | .assignment c => some c
  | _ => none

end Config

/-- The account configuration that a value is or describes. -/
def AccountConfig.parse : Value → Checked AccountConfig := Schema.account.take Config.account? read

/-- The grant or denial that a value is or describes. -/
def Override.parse : Value → Checked Override := Schema.override.take Config.override? read

/-- The group configuration that a value is or describes. -/
def GroupConfig.parse : Value → Checked GroupConfig := Schema.group.take Config.group? read

/-- The role configuration that a value is or describes. -/
def RoleConfig.parse : Value → Checked RoleConfig := Schema.role.take Config.role? read

/-- The attachment of a group that a value is or describes. -/
def Assignment.parse : Value → Checked Assignment :=
  Schema.assignment.take Config.assignment? read

namespace PermissionConfig

/-- The schema that a tag selects. -/
def schemaOfTag? (tag : Value) : Option Schema :=
  match tag.text? with
  | some "system" => some .systemPermission
  | some "data" => some .dataPermission
  | _ => none

/-- The schema that the tag among the entries selects. -/
def selectSchema (es : Entries) : Checked Schema :=
  match Value.find? es tagField with
  | none => .fail (.noTag tagField)
  | some tag =>
    match schemaOfTag? tag with
    | some s => .ok s
    | none => .fail (.unknownTag tagField tag.display ["system", "data"])

/-- The tag that selects a schema of permissions. -/
def tagOf (s : Schema) : String := if s = .systemPermission then "system" else "data"

/-- Reads a permission of the kind that the tag tells. -/
def read (es : Entries) : Checked PermissionConfig :=
  (selectSchema es).andThen fun s =>
    Checked.under (tagOf s)
      (if s = .systemPermission then PermissionConfig.system <$> SystemPermission.read es
      else PermissionConfig.data <$> DataPermission.read es)

/-- The fields that an object has: a record has those of its schema, while decimals, universal
identifiers and labels have none.  Any other value is no object. -/
def objectFields? : Value → Option Entries
  | .record s given => some (Schema.entriesOf (Value.recordFields s given))
  | .decimal _ | .uuid _ | .label _ => some []
  | _ => none

/-- The entries in which a value that is no dictionary is asked for its tag: the fields of an
object, or, for a pair of an object and a dictionary, those of the dictionary in front of them. -/
def taggedEntries? : Value → Option Entries
  | .tuple [object, .dictionary es] => (objectFields? object).map (es ++ ·)
  | v => objectFields? v

/-- Why a value that is neither a dictionary nor a record describes no permission. -/
def reject {α : Type} (v : Value) : Checked α :=
  match taggedEntries? v with
  | some es => (selectSchema es).andThen fun s => (Checked.fail (.notInstance s)).under (tagOf s)
  | none => .fail .notObject

/-- The permission that a value describes. -/
def parse : Value → Checked PermissionConfig
  | .dictionary es => read es
  | .record _ given => read (Value.unfoldedFields given)
  | v => reject v

end PermissionConfig

/-- What a configuration can be checked against: a schema, or a permission of either kind. -/
inductive SchemaChoice where
  | schema (s : Schema)
  | permission

/-- The schema, or the choice between the two kinds of permission, with the given name. -/
def SchemaChoice.ofName? (name : String) : Option SchemaChoice :=
  if name = "PermissionConfig" then some .permission else (Schema.ofName? name).map .schema

/-- The configuration that a value describes. -/
def SchemaChoice.parse (c : SchemaChoice) (v : Value) : Checked Config :=
  match c with
  | .schema s => Instance.config <$> s.parse v
  | .permission => PermissionConfig.config <$> PermissionConfig.parse v

end AccessGraph
