import AccessGraph.Compilation.Phase
import AccessGraph.Registry.Link

/-!
# Entities of any kind

An entity together with its kind, as a registry finds it: what identifies and names it, what it
emits, and the subquery that finds its row.  Settings have neither a name nor such a subquery unless
a script gives them one.
-/

namespace AccessGraph

/-- An entity of any kind. -/
inductive Entity where
  | setting (e : Entry Setting)
  | permission (e : Entry Permission)
  | group (e : Entry Group)
  | role (e : Entry Role)
  | account (e : Entry Account)

namespace Entity

/-- The identifier. -/
def identifier : Entity → Identifier
  | .setting e => e.settingKey
  | .permission e => e.permissionId
  | .group e => e.groupId
  | .role e => e.roleId
  | .account e => e.accountId

/-- The name, if the entity has one. -/
def name? : Entity → Option String
  | .setting e => e.elim (fun _ => none) fun s => some s.name
  | .permission e => some e.permissionName
  | .group e => some e.groupName
  | .role e => some e.roleName
  | .account e => e.elim (fun _ => none) fun s => some s.name

/-- The subquery that finds the row, if there is one. -/
def lookup? (names : Names) : Entity → Option String
  | .setting e => e.elim (fun _ => none) fun s => some s.lookup
  | .permission e => some (e.findPermission names)
  | .group e => some (e.findGroup names)
  | .role e => some (e.findRole names)
  | .account e => some (e.findAccount names)

/-- What the entity emits. -/
def emit (names : Names) : Entity → Except Failure Emission
  | .setting e => Setting.emit names e
  | .permission e => Permission.emit names e
  | .group e => Group.emit names e
  | .role e => Role.emit names e
  | .account e => Account.emit names e

/-- The display of a permission. -/
def shown? : Entity → Option String
  | .permission e => e.elim (fun p => some p.shown) fun _ => none
  | _ => none

/-- The permissions of a configured group or role. -/
def permissions? : Entity → Option (List Value)
  | .group e => e.elim (fun g => some g.permissions) fun _ => none
  | .role e => e.elim (fun o => some o.permissions) fun _ => none
  | _ => none

/-- The groups of a configured role. -/
def assignments? : Entity → Option (List Assignment)
  | .role e => e.elim (fun o => some o.assignments) fun _ => none
  | _ => none

/-- The roles of a configured account. -/
def roles? : Entity → Option (List Value)
  | .account e => e.elim (fun a => some a.roles) fun _ => none
  | _ => none

/-- The overrides of a configured account. -/
def overrides? : Entity → Option (List Override)
  | .account e => e.elim (fun a => some a.overrides) fun _ => none
  | _ => none

/-- The command that gives a permission to the owner of the given identifier, if it is a group or
a role. -/
def permissionLink? (e : Entity) (id : String) (permission : Value) : Option Link :=
  match e with
  | .group _ => some (.groupPermission id permission)
  | .role _ => some (.rolePermission id permission)
  | _ => none

end Entity

/-- The entity of a kind under an identifier. -/
def Registry.entity (r : Registry) (kind : Kind) (id : Identifier) : Except Error Entity :=
  match kind with
  | .setting => (r.setting id).map .setting
  | .permission => (r.permission id).map .permission
  | .group => (r.group id).map .group
  | .role => (r.role id).map .role
  | .account => (r.account id).map .account

/-- How many entities of each kind are registered. -/
def Registry.sizes (r : Registry) : List Nat :=
  [r.settings.size, r.permissions.size, r.groups.size, r.roles.size, r.accounts.size]

end AccessGraph
