import AccessGraph.Entity.Basic
import AccessGraph.Naming
import AccessGraph.Sql.Row

/-!
# The rows of entities

Every entity is written as one row, an account also as a mark on its external identity.  Rows refer
to others by natural keys: permissions, groups and roles are looked up by name, accounts by their
identifier.  A row can fail on a table whose keys have no JSON form and on a moment that has no UTC
form.
-/

namespace AccessGraph

open Sql (LiteralFault Row)

/-- Why an entity emits nothing. -/
inductive Failure where
  | literal (fault : LiteralFault)
  | scripted (message : String)
  deriving DecidableEq, Repr

/-- What is wrong with an entity that emits nothing. -/
def Failure.message : Failure → String
  | .literal fault => fault.message
  | .scripted message => message

/-- The row of a setting. -/
def Setting.row (names : Names) (s : Setting) : Row :=
  ⟨names.table Tables.configuration,
    [("key", Sql.quote s.key.text), ("value", Sql.literal s.value)]⟩

/-- The statement that inserts a setting. -/
def Setting.statement (names : Names) (s : Setting) : String := "\n" ++ (s.row names).inline ++ ";"

/-- The row of a permission on the administration system. -/
def SystemPermission.row (names : Names) (p : SystemPermission) : Except LiteralFault Row := do
  let metadata ← Sql.jsonTable p.metadata
  return ⟨names.table Tables.permissions,
    [("name", Sql.quote p.name),
     ("description", Sql.quote p.description),
     ("permission_type", Sql.literal "system"),
     ("system_resource", Sql.quote p.resource.text),
     ("action", Sql.quote p.action.text),
     ("metadata", metadata)]⟩

/-- The row of a permission on application data. -/
def DataPermission.row (names : Names) (p : DataPermission) : Except LiteralFault Row := do
  let constraints ← Sql.jsonOption p.constraints
  let conditions ← Sql.jsonOption p.conditions
  let metadata ← Sql.jsonTable p.metadata
  return ⟨names.table Tables.permissions,
    [("name", Sql.quote p.name),
     ("description", Sql.quote p.description),
     ("permission_type", Sql.literal "data"),
     ("scope", Sql.quote p.scope.text),
     ("schema_name", Sql.quote p.schemaName),
     ("table_name", Sql.quote p.tableName),
     ("column_name", Sql.quote p.columnName),
     ("action", Sql.quote p.action.text),
     ("constraints", constraints),
     ("conditions", conditions),
     ("metadata", metadata)]⟩

/-- The row of a permission. -/
def Permission.row (names : Names) (p : Permission) : Except LiteralFault Row :=
  match p.config with
  | .system c => c.row names
  | .data c => c.row names

/-- The row of a permission group. -/
def Group.row (names : Names) (g : Group) : Except LiteralFault Row := do
  let metadata ← Sql.jsonTable g.config.metadata
  return ⟨names.table Tables.groups,
    [("name", Sql.quote g.name),
     ("description", Sql.quote g.config.description),
     ("metadata", metadata)]⟩

/-- The row of a role. -/
def Role.row (names : Names) (r : Role) : Except LiteralFault Row := do
  let metadata ← Sql.jsonTable r.config.metadata
  let validFrom ← Sql.timestamp r.config.window.validFrom
  let validUntil ← Sql.timestamp r.config.window.validUntil
  return ⟨names.table Tables.roles,
    [("name", Sql.quote r.name),
     ("description", Sql.quote r.config.description),
     ("rank", Text.intText r.config.rank),
     ("metadata", metadata),
     ("valid_from", validFrom),
     ("valid_until", validUntil)]⟩

/-- The row of an account. -/
def Account.row (names : Names) (a : Account) : Except LiteralFault Row := do
  let metadata ← Sql.jsonTable a.config.metadata
  return ⟨names.table Tables.accounts,
    [("auth_user_id", Sql.quote a.id.text), ("metadata", metadata)]⟩

/-- The `jsonb` literal that marks an external identity as managed here. -/
def accessFlag : String := Sql.literal "\x7b\"supamode_access\": \"true\"\x7d" ++ "::jsonb"

/-- The statement that marks the external identity of an account. -/
def Account.flagStatement (names : Names) (a : Account) : String :=
  "UPDATE " ++ names.authTable Tables.users
    ++ " SET raw_app_meta_data = coalesce(raw_app_meta_data, '\x7b\x7d'::jsonb) || " ++ accessFlag
    ++ " WHERE id = " ++ Sql.quote a.id.text ++ ";"

/-- The statements of an account: the mark on its external identity, then its row. -/
def Account.statements (names : Names) (a : Account) : Except LiteralFault (List String) := do
  let row ← a.row names
  return [a.flagStatement names, row.inline ++ ";"]

/-- The subquery that finds a permission by its name. -/
def lookupPermission (names : Names) (name : String) : String :=
  Sql.lookup (names.table Tables.permissions) "name" name

/-- The subquery that finds the row of a permission. -/
def Permission.lookup (names : Names) (p : Permission) : String := lookupPermission names p.name

/-- The subquery that finds the row of a group. -/
def Group.lookup (names : Names) (g : Group) : String :=
  Sql.lookup (names.table Tables.groups) "name" g.name

/-- The subquery that finds the row of a role. -/
def Role.lookup (names : Names) (r : Role) : String :=
  Sql.lookup (names.table Tables.roles) "name" r.name

/-- The subquery that finds the row of an account. -/
def Account.lookup (names : Names) (a : Account) : String :=
  Sql.lookup (names.table Tables.accounts) "auth_user_id" a.id.text

/-- The row of an override, for the account that `account` looks up. -/
def Override.row (names : Names) (account : String) (o : Override) : Except LiteralFault Row := do
  let validFrom ← Sql.timestamp o.window.validFrom
  let validUntil ← Sql.timestamp o.window.validUntil
  let metadata ← Sql.jsonTable o.metadata
  return ⟨names.table Tables.accountPermissions,
    [("account_id", account),
     ("permission_id", lookupPermission names o.permissionName),
     ("is_grant", Sql.bool o.isGrant),
     ("valid_from", validFrom),
     ("valid_until", validUntil),
     ("metadata", metadata)]⟩

/-- What an entity emits by itself. -/
def Emission.run : Emission → Except Failure Emission
  | .failure message => .error (.scripted message)
  | e => .ok e

/-- A row as the emission of one statement. -/
def spreadRow (row : Except LiteralFault Row) : Except Failure Emission :=
  match row with
  | .ok r => .ok (.statement r.spread)
  | .error fault => .error (.literal fault)

/-- What a setting emits. -/
def Setting.emit (names : Names) (e : Entry Setting) : Except Failure Emission :=
  e.elim (fun s => .ok (.statement (s.statement names))) fun s => s.emission.run

/-- What a permission emits. -/
def Permission.emit (names : Names) (e : Entry Permission) : Except Failure Emission :=
  e.elim (fun p => spreadRow (p.row names)) fun s => s.emission.run

/-- What a group emits. -/
def Group.emit (names : Names) (e : Entry Group) : Except Failure Emission :=
  e.elim (fun g => spreadRow (g.row names)) fun s => s.emission.run

/-- What a role emits. -/
def Role.emit (names : Names) (e : Entry Role) : Except Failure Emission :=
  e.elim (fun r => spreadRow (r.row names)) fun s => s.emission.run

/-- What an account emits. -/
def Account.emit (names : Names) (e : Entry Account) : Except Failure Emission :=
  e.elim
    (fun a => match a.statements names with
      | .ok ts => .ok (.statements ts)
      | .error fault => .error (.literal fault))
    fun s => s.emission.run

end AccessGraph
