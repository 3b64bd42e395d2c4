/-!
# Schemas

The schemas that configurations are checked against, by name, with the names of their fields in the
order in which they are checked and reported.  Three of them extend the validity window.
-/

namespace AccessGraph

/-- A configuration schema. -/
inductive Schema where
  | window | account | override | group | role | assignment | systemPermission | dataPermission
  deriving DecidableEq, Repr

namespace Schema

/-- All schemas. -/
def values : List Schema :=
  [.window, .account, .override, .group, .role, .assignment, .systemPermission, .dataPermission]

/-- The name by which messages refer to the schema. -/
def name : Schema → String
  | .window => "ValidityWindow"
  | .account => "AccountConfig"
  | .override => "AccountPermissionOverride"
  | .group => "PermissionGroupConfig"
  | .role => "RoleConfig"
  | .assignment => "RolePermissionGroupAssignment"
  | .systemPermission => "SystemPermissionConfig"
  | .dataPermission => "DataPermissionConfig"

/-- The schema with the given name. -/
def ofName? (s : String) : Option Schema := values.find? (·.name = s)

/-- The fields of the validity window. -/
def windowFields : List String := ["valid_from", "valid_until"]

/-- The fields in their order; those of the validity window come first. -/
def fieldNames : Schema → List String
  -- Where a window is extended, its fields come first.
  | .window => windowFields
  | .account => ["metadata"]
  | .override => windowFields ++ ["permission_name", "is_grant", "metadata"]
  | .group => ["name", "description", "metadata"]
  | .role => windowFields ++ ["name", "description", "rank", "metadata"]
  | .assignment => windowFields ++ ["group_id", "metadata"]
  | .systemPermission =>
    ["permission_type", "name", "description", "system_resource", "action", "metadata"]
  | .dataPermission =>
    ["permission_type", "name", "description", "scope", "action", "schema_name", "table_name",
     "column_name", "constraints", "conditions", "metadata"]

/-- Whether every instance of the first schema is an instance of the second. -/
def isA (s t : Schema) : Bool :=
  s == t || (t == .window && (s == .override || s == .role || s == .assignment))

end Schema

end AccessGraph
