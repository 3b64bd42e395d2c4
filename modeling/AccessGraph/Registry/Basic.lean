import AccessGraph.Error
import AccessGraph.Store

/-!
# The registry

A registry owns the entities of one graph, in one store for each kind.  `Registry.define` checks a
definition and registers the entity it describes: first the configuration is validated, then the
identifier has to be free, then the name, among the entities of the kind.  Settings and accounts
have no names.
-/

namespace AccessGraph

/-- The entities of a graph and the names of the schemas they are written to. -/
structure Registry where
  names : Names
  settings : Store (Entry Setting)
  permissions : Store (Entry Permission)
  groups : Store (Entry Group)
  roles : Store (Entry Role)
  accounts : Store (Entry Account)

/-- The given text, or the default in the place of an absent or empty one. -/
def orDefault (default : String) (given : Option String) : String :=
  match given with
  | none => default
  | some s => if s.isEmpty then default else s

/-- The names of the schemas, if both are accepted. -/
def Names.check (n : Names) : Except Error Names :=
  if !isSchemaName n.schema then .error (.schemaName .schema n.schema)
  else if !isSchemaName n.authSchema then .error (.schemaName .auth n.authSchema)
  else .ok n

/-- A checked part of a configuration of the given subject. -/
def Checked.orInvalid {α : Type} (subject : String) : Checked α → Except Error α
  | .ok a => .ok a
  | .bad is => .error (.invalid subject is)

namespace Entry

/-- The key of a setting. -/
def settingKey (e : Entry Setting) : Identifier := e.elim Setting.key Scripted.identifier

/-- The identifier of a permission. -/
def permissionId (e : Entry Permission) : Identifier := e.elim Permission.id Scripted.identifier

/-- The name of a permission. -/
def permissionName (e : Entry Permission) : String := e.elim Permission.name Scripted.name

/-- The identifier of a group. -/
def groupId (e : Entry Group) : Identifier := e.elim Group.id Scripted.identifier

/-- The name of a group. -/
def groupName (e : Entry Group) : String := e.elim Group.name Scripted.name

/-- The permissions of a group. -/
def groupPermissions (e : Entry Group) : List Value := e.elim Group.permissions Scripted.permissions

/-- The identifier of a role. -/
def roleId (e : Entry Role) : Identifier := e.elim Role.id Scripted.identifier

/-- The name of a role. -/
def roleName (e : Entry Role) : String := e.elim Role.name Scripted.name

/-- The permissions of a role. -/
def rolePermissions (e : Entry Role) : List Value := e.elim Role.permissions Scripted.permissions

/-- The groups of a role. -/
def roleGroups (e : Entry Role) : List Value :=
  e.elim (fun o => o.groups.map .text) Scripted.groups

/-- The identifier of an account. -/
def accountId (e : Entry Account) : Identifier := e.elim Account.id Scripted.identifier

/-- The roles of an account. -/
def accountRoles (e : Entry Account) : List Value := e.elim Account.roles Scripted.roles

/-- The overrides of an account; a script has none. -/
def accountOverrides (e : Entry Account) : List Override := e.elim Account.overrides fun _ => []

end Entry

/-- Registers an entity whose identifier alone has to be free. -/
def Store.register {α : Type} (s : Store α) (kind : Kind) (id : Identifier) (a : α) :
    Except Error (Store α) :=
  if s.contains id.text then .error (.duplicateId kind id) else .ok (s.push id.text a)

/-- Registers an entity whose identifier and then whose name have to be free. -/
def Store.registerNamed {α : Type} (s : Store α) (kind : Kind) (name : α → String)
    (id : Identifier) (a : α) : Except Error (Store α) :=
  if s.contains id.text then .error (.duplicateId kind id)
  else if s.toList.any (name · == name a) then .error (.duplicateName kind (name a))
  else .ok (s.push id.text a)

/-- What an entity is defined by. -/
inductive Definition where
  | setting (key value : Value)
  | permission (id : Identifier) (config : Value)
  | group (id : Identifier) (config : Value)
  | role (id : Identifier) (config : Value)
  | account (id config : Value)

/-- The identifier of the defined entity, if it is given one. -/
def Definition.id? : Definition → Option Identifier
  | .setting key _ => Identifier.ofValue? key
  | .permission id _ | .group id _ | .role id _ => some id
  | .account id _ => Identifier.ofValue? id

/-- The kind of the defined entity. -/
def Definition.kind : Definition → Kind
  | .setting _ _ => .setting
  | .permission _ _ => .permission
  | .group _ _ => .group
  | .role _ _ => .role
  | .account _ _ => .account

namespace Registry

/-- The registry without entities. -/
def empty (names : Names) : Registry :=
  ⟨names, .empty, .empty, .empty, .empty, .empty⟩

/-- Opens a registry; `defaults` stand in for absent and empty names. -/
def create (defaults : Names) (schema auth : Option String) : Except Error Registry :=
  (Names.check ⟨orDefault defaults.schema schema, orDefault defaults.authSchema auth⟩).map
    empty

/-- Registers a setting. -/
def addSetting (r : Registry) (key : Identifier) (e : Entry Setting) : Except Error Registry :=
  (r.settings.register .setting key e).map fun s => { r with settings := s }

/-- Registers a permission. -/
def addPermission (r : Registry) (id : Identifier) (e : Entry Permission) :
    Except Error Registry :=
  (r.permissions.registerNamed .permission Entry.permissionName id e).map fun s =>
    { r with permissions := s }

/-- Registers a group. -/
def addGroup (r : Registry) (id : Identifier) (e : Entry Group) : Except Error Registry :=
  (r.groups.registerNamed .group Entry.groupName id e).map fun s => { r with groups := s }

/-- Registers a role. -/
def addRole (r : Registry) (id : Identifier) (e : Entry Role) : Except Error Registry :=
  (r.roles.registerNamed .role Entry.roleName id e).map fun s => { r with roles := s }

/-- Registers an account. -/
def addAccount (r : Registry) (id : Identifier) (e : Entry Account) : Except Error Registry :=
  (r.accounts.register .account id e).map fun s => { r with accounts := s }

/-- An identifier that is not empty, or the given error. -/
def nonEmptyIdentifier (v : Value) (e : Error) : Except Error Identifier :=
  match Identifier.ofValue? v with
  | some id => if id.text.isEmpty then .error e else .ok id
  | none => .error e

/-- A missing configuration of an account is an empty one. -/
def accountConfig : Value → Value
  | .null => .dictionary []
  | v => v

/-- Checks a definition and registers the entity it describes. -/
def define (r : Registry) : Definition → Except Error Registry
  | .setting key value => do
    let key ← nonEmptyIdentifier key .settingKey
    match value.text? with
    | some value => r.addSetting key (.configured ⟨key, value⟩)
    | none => .error .settingValue
  | .permission id config => do
    let c ← (PermissionConfig.parse config).orInvalid "permission"
    r.addPermission id (.configured ⟨id, c⟩)
  | .group id config => do
    let c ← (GroupConfig.parse config).orInvalid "permission group"
    r.addGroup id (.configured ⟨id, c, []⟩)
  | .role id config => do
    let c ← (RoleConfig.parse config).orInvalid "role"
    r.addRole id (.configured ⟨id, c, [], []⟩)
  | .account id config => do
    -- An identifier that is not accepted is told before anything about the configuration.
    let id ← nonEmptyIdentifier id .accountId
    let c ← (AccountConfig.parse (accountConfig config)).orInvalid "account"
    r.addAccount id (.configured ⟨id, c, [], []⟩)

/-- Registers a scripted entity of a kind. -/
def script (r : Registry) (kind : Kind) (id : Identifier) (s : Scripted) : Except Error Registry :=
  match kind with
  | .setting => r.addSetting id (.scripted s)
  | .permission => r.addPermission id (.scripted s)
  | .group => r.addGroup id (.scripted s)
  | .role => r.addRole id (.scripted s)
  | .account => r.addAccount id (.scripted s)

/-- The entity of a store under an identifier. -/
def find {α : Type} (s : Store α) (kind : Kind) (id : Identifier) : Except Error α :=
  match s.get? id.text with
  | some a => .ok a
  | none => .error (.notFound kind id)

/-- The setting under a key. -/
def setting (r : Registry) (key : Identifier) : Except Error (Entry Setting) :=
  find r.settings .setting key

/-- The permission under an identifier. -/
def permission (r : Registry) (id : Identifier) : Except Error (Entry Permission) :=
  find r.permissions .permission id

/-- The group under an identifier. -/
def group (r : Registry) (id : Identifier) : Except Error (Entry Group) :=
  find r.groups .group id

/-- The role under an identifier. -/
def role (r : Registry) (id : Identifier) : Except Error (Entry Role) := find r.roles .role id

/-- The account under an identifier. -/
def account (r : Registry) (id : Identifier) : Except Error (Entry Account) :=
  find r.accounts .account id

/-- Whether an entity of a kind is registered under an identifier. -/
def has (r : Registry) : Kind → String → Bool
  | .setting => r.settings.contains
  | .permission => r.permissions.contains
  | .group => r.groups.contains
  | .role => r.roles.contains
  | .account => r.accounts.contains

/-- The identifiers of the entities of a kind, in the order of registration. -/
def identifiers (r : Registry) : Kind → List String
  | .setting => r.settings.toList.map fun e => e.settingKey.text
  | .permission => r.permissions.toList.map fun e => e.permissionId.text
  | .group => r.groups.toList.map fun e => e.groupId.text
  | .role => r.roles.toList.map fun e => e.roleId.text
  | .account => r.accounts.toList.map fun e => e.accountId.text

end Registry

/-- Fields with values that were given; null ones are left out. -/
def givenFields (fields : Table) : Table := fields.filter fun
  | (_, .null) => false
  | _ => true

namespace Definition

/-- A permission on a resource of the administration system, by its parts.  An absent description
is passed on as null, absent metadata is left out. -/
def systemPermission (id : Identifier) (resource action name description metadata : Value) :
    Definition :=
  .permission id (.ofTable
    ([(tagField, .text "system"), ("name", name), ("description", description),
      ("system_resource", resource), ("action", action)]
      ++ givenFields [("metadata", metadata)]))

/-- A permission on application data, by its parts.  Absent parts are passed on as null, except
absent metadata, which is left out. -/
def dataPermission (id : Identifier) (name scope action description schemaName tableName columnName
    constraints conditions metadata : Value) : Definition :=
  .permission id (.ofTable
    ([(tagField, .text "data"), ("name", name), ("description", description), ("scope", scope),
      ("action", action), ("schema_name", schemaName), ("table_name", tableName),
      ("column_name", columnName), ("constraints", constraints), ("conditions", conditions)]
      ++ givenFields [("metadata", metadata)]))

/-- The setting that tells whether a second factor is required. -/
def requiredMfa (required : Bool) : Definition :=
  .setting (.text "requires_mfa") (.text (if required then "true" else "false"))

end Definition

end AccessGraph
