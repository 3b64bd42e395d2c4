import AccessGraph.Config.Field

/-!
# The configurations and their checks

One structure for each schema, with the check that reads it from the entries of a dictionary.  The
fields are checked in the order of `Schema.fieldNames`.  Two checks look at a configuration as a
whole and run once every field is sound: both ends of a validity window are of one awareness and in
order, and a permission on storage names a bucket and a path.
-/

namespace AccessGraph

open AccessGraph.Field (required optional boundedText nullable word flag boundedInt table)

/-- When something is valid; an open end is absent. -/
structure ValidityWindow where
  validFrom : Option Moment
  validUntil : Option Moment
  deriving DecidableEq, Repr

/-- The configuration of an account. -/
structure AccountConfig where
  metadata : Table

/-- A permission granted to or withheld from an account, by name. -/
structure Override where
  window : ValidityWindow
  permissionName : String
  isGrant : Bool
  metadata : Table

/-- The configuration of a permission group. -/
structure GroupConfig where
  name : String
  description : Option String
  metadata : Table

/-- The configuration of a role. -/
structure RoleConfig where
  window : ValidityWindow
  name : String
  description : Option String
  rank : Int
  metadata : Table

/-- A permission group attached to a role. -/
structure Assignment where
  window : ValidityWindow
  groupId : String
  metadata : Table

/-- The configuration of a permission on the administration system. -/
structure SystemPermission where
  name : String
  description : Option String
  resource : Resource
  action : Action
  metadata : Table

/-- The configuration of a permission on application data. -/
structure DataPermission where
  name : String
  description : Option String
  scope : Scope
  action : Action
  schemaName : Option String
  tableName : Option String
  columnName : Option String
  constraints : Option Table
  conditions : Option Table
  metadata : Table

/-- A window with both ends has ends of one awareness, the first before the second. -/
def ValidityWindow.fault? (w : ValidityWindow) : Option Cause :=
  match w.validFrom, w.validUntil with
  | some a, some b =>
    if a.isAware != b.isAware then some .mixedAwareness
    else if a.isBefore b then none
    else some .windowOrder
  | _, _ => none

/-- The first of the keys that a permission on storage needs and its metadata lacks. -/
def DataPermission.fault? (p : DataPermission) : Option Cause :=
  if p.scope = .storage then
    (["bucket_name", "path_pattern"].find? fun key =>
      !((p.metadata.lookup key).map Value.isTruthy).getD false).map .storageLocation
  else none

/-- A value that passes a check of the whole. -/
def Checked.sound {α : Type} (fault? : α → Option Cause) (a : α) : Checked α :=
  match fault? a with
  | some cause => .fail cause
  | none => .ok a

/-- The metadata of every configuration is a table, by default an empty one. -/
def metadataField (es : Entries) : Checked Table := optional es "metadata" [] table

/-- The description of a named entity. -/
def descriptionField (es : Entries) : Checked (Option String) :=
  optional es "description" none (nullable (boundedText 0 (some 500)))

/-- The name of an entity, of bounded length. -/
def nameField (es : Entries) (most : Nat) : Checked String :=
  required es "name" (boundedText 1 (some most))

/-- A text that may be absent. -/
def qualifierField (es : Entries) (field : String) : Checked (Option String) :=
  optional es field none (nullable Field.text)

/-- A table that may be absent. -/
def tableField (es : Entries) (field : String) : Checked (Option Table) :=
  optional es field none (nullable table)

/-- The ends of a window, each on its own. -/
def ValidityWindow.ends (es : Entries) : Checked ValidityWindow :=
  ValidityWindow.mk <$> optional es "valid_from" none (nullable Field.moment)
    <*> optional es "valid_until" none (nullable Field.moment)

/-- Reads a validity window. -/
def ValidityWindow.read (es : Entries) : Checked ValidityWindow :=
  (ends es).andThen (.sound fault?)

/-- Reads the configuration of an account. -/
def AccountConfig.read (es : Entries) : Checked AccountConfig :=
  AccountConfig.mk <$> metadataField es

/-- Reads a grant or a denial. -/
def Override.read (es : Entries) : Checked Override :=
  Checked.andThen
    (Override.mk <$> ValidityWindow.ends es
      <*> required es "permission_name" (boundedText 1 none)
      <*> required es "is_grant" flag
      <*> metadataField es)
    (.sound fun o => o.window.fault?)

/-- Reads the configuration of a permission group. -/
def GroupConfig.read (es : Entries) : Checked GroupConfig :=
  GroupConfig.mk <$> nameField es 100 <*> descriptionField es <*> metadataField es

/-- Reads the configuration of a role. -/
def RoleConfig.read (es : Entries) : Checked RoleConfig :=
  Checked.andThen
    (RoleConfig.mk <$> ValidityWindow.ends es
      <*> nameField es 50
      <*> descriptionField es
      <*> optional es "rank" 0 (boundedInt 0 100)
      <*> metadataField es)
    (.sound fun c => c.window.fault?)

/-- Reads the attachment of a group to a role. -/
def Assignment.read (es : Entries) : Checked Assignment :=
  Checked.andThen
    (Assignment.mk <$> ValidityWindow.ends es
      <*> required es "group_id" Field.text
      <*> metadataField es)
    (.sound fun a => a.window.fault?)

/-- The field that tells the two kinds of permission apart. -/
def tagField : String := "permission_type"

/-- Checks that the tag is the given one. -/
def tag (es : Entries) (expected : String) : Checked Unit :=
  required es tagField fun v =>
    if v.text? = some expected then .ok () else .fail (.notOneOf [expected])

/-- Reads a permission on the administration system. -/
def SystemPermission.read (es : Entries) : Checked SystemPermission :=
  (fun _ => SystemPermission.mk) <$> tag es "system"
    <*> nameField es 100
    <*> descriptionField es
    <*> required es "system_resource" (word Resource.values Resource.text)
    <*> required es "action" (word Action.values Action.text)
    <*> metadataField es

/-- Reads a permission on application data. -/
def DataPermission.read (es : Entries) : Checked DataPermission :=
  Checked.andThen
    ((fun _ => DataPermission.mk) <$> tag es "data"
      <*> nameField es 100
      <*> descriptionField es
      <*> required es "scope" (word Scope.values Scope.text)
      <*> required es "action" (word Action.values Action.text)
      <*> qualifierField es "schema_name"
      <*> qualifierField es "table_name"
      <*> qualifierField es "column_name"
      <*> tableField es "constraints"
      <*> tableField es "conditions"
      <*> metadataField es)
    -- The location is looked at when all fields are in order.
    (.sound DataPermission.fault?)

end AccessGraph
