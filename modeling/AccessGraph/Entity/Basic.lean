import AccessGraph.Config.Instance
import AccessGraph.Identifier

/-!
# Entities of the access graph

The five kinds of entities, each with its configuration and the references it holds.  References
are kept as the values they were given as, except that overrides name the permission and
assignments the group by a text; whether what they refer to exists is not asked here.  An entity can
also be scripted: it then says by itself what it emits and how it is looked up.
-/

namespace AccessGraph

/-- The kinds of entities. -/
inductive Kind where
  | setting | permission | group | role | account
  deriving DecidableEq, Repr

/-- The noun for a kind at the start of a sentence. -/
def Kind.noun : Kind → String
  | .setting => "System setting"
  | .permission => "Permission"
  | .group => "Permission group"
  | .role => "Role"
  | .account => "Account"

/-- The noun for a kind within a sentence. -/
def Kind.innerNoun : Kind → String
  | .setting => "system setting"
  | .permission => "permission"
  | .group => "permission group"
  | .role => "role"
  | .account => "account"

/-- A setting: a key with a text. -/
structure Setting where
  key : Identifier
  value : String
  deriving DecidableEq, Repr

/-- A permission. -/
structure Permission where
  id : Identifier
  config : PermissionConfig

/-- A named bundle of permissions. -/
structure Group where
  id : Identifier
  config : GroupConfig
  permissions : List Value

/-- A ranked bundle of permissions and permission groups. -/
structure Role where
  id : Identifier
  config : RoleConfig
  permissions : List Value
  assignments : List Assignment

/-- An account of an external identity, whose identifier it bears. -/
structure Account where
  id : Identifier
  config : AccountConfig
  roles : List Value
  overrides : List Override

/-- What a scripted entity emits. -/
inductive Emission where
  | statement (text : String)
  | statements (texts : List String)
  | failure (message : String)
  deriving DecidableEq, Repr

/-- An entity that follows a script. -/
structure Scripted where
  identifier : Identifier
  name : String
  emission : Emission
  lookup : String
  permissions : List Value
  groups : List Value
  roles : List Value

/-- An entity of a kind, configured or scripted. -/
inductive Entry (α : Type) where
  | configured (entity : α)
  | scripted (script : Scripted)

namespace Entry

/-- A property of the entity, which its script tells if it has one. -/
def elim {α β : Type} (f : α → β) (g : Scripted → β) : Entry α → β
  | .configured a => f a
  | .scripted s => g s

/-- Changes a configured entity; a script stays as it is. -/
def map {α : Type} (f : α → α) : Entry α → Entry α
  | .configured a => .configured (f a)
  | .scripted s => .scripted s

end Entry

/-- The name of a permission of either kind. -/
def PermissionConfig.name : PermissionConfig → String
  | .system p => p.name
  | .data p => p.name

/-- Whether the permission is on the administration system. -/
def PermissionConfig.isSystem : PermissionConfig → Bool
  | .system _ => true
  | .data _ => false

/-- The name of a permission. -/
def Permission.name (p : Permission) : String := p.config.name

/-- The name of a group. -/
def Group.name (g : Group) : String := g.config.name

/-- The name of a role. -/
def Role.name (r : Role) : String := r.config.name

/-- The groups of a role, in the order of their assignment. -/
def Role.groups (r : Role) : List String := r.assignments.map Assignment.groupId

/-- The display of a permission by its identifier and name. -/
def Permission.shown (p : Permission) : String :=
  "PermissionDefinition(id=" ++ p.id.value.shown ++ ", name=" ++ Text.quoted p.name ++ ")"

end AccessGraph
