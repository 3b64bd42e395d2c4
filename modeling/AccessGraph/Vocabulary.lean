/-!
# Vocabulary of the destination database

The enumerated words that occur in permissions: the system resources, the actions on them and the
scopes of data permissions.  A `Label` is a word of one of the three enumerations; it stands for
its text wherever a text is expected and is displayed by the name of its constant.
-/

namespace AccessGraph

/-- A resource of the administration system. -/
inductive Resource where
  | account | role | permission | log | table | authUser | systemSetting
  deriving DecidableEq, Repr

/-- What a permission allows to do. -/
inductive Action where
  | select | insert | update | delete | all
  deriving DecidableEq, Repr

/-- What a data permission ranges over. -/
inductive Scope where
  | table | column | storage
  deriving DecidableEq, Repr

namespace Resource

/-- The resources in the order of their declaration. -/
def values : List Resource :=
  [.account, .role, .permission, .log, .table, .authUser, .systemSetting]

/-- The word stored in the database. -/
def text : Resource → String
  | .account => "account"
  | .role => "role"
  | .permission => "permission"
  | .log => "log"
  | .table => "table"
  | .authUser => "auth_user"
  | .systemSetting => "system_setting"

/-- The name of the constant. -/
def constant : Resource → String
  | .account => "ACCOUNT"
  | .role => "ROLE"
  | .permission => "PERMISSION"
  | .log => "LOG"
  | .table => "TABLE"
  | .authUser => "AUTH_USER"
  | .systemSetting => "SYSTEM_SETTING"

end Resource

namespace Action

/-- The actions in the order of their declaration. -/
def values : List Action := [.select, .insert, .update, .delete, .all]

/-- The word stored in the database. -/
def text : Action → String
  | .select => "select"
  | .insert => "insert"
  | .update => "update"
  | .delete => "delete"
  | .all => "*"

/-- The name of the constant. -/
def constant : Action → String
  | .select => "SELECT"
  | .insert => "INSERT"
  | .update => "UPDATE"
  | .delete => "DELETE"
  | .all => "ALL"

end Action

namespace Scope

/-- The scopes in the order of their declaration. -/
def values : List Scope := [.table, .column, .storage]

/-- The word stored in the database. -/
def text : Scope → String
  | .table => "table"
  | .column => "column"
  | .storage => "storage"

/-- The name of the constant. -/
def constant : Scope → String
  | .table => "TABLE"
  | .column => "COLUMN"
  | .storage => "STORAGE"

end Scope

/-- A word of one of the enumerations. -/
inductive Label where
  | resource (r : Resource)
  | action (a : Action)
  | scope (s : Scope)
  deriving DecidableEq, Repr

namespace Label

/-- The word itself. -/
def text : Label → String
  | .resource r => r.text
  | .action a => a.text
  | .scope s => s.text

/-- The qualified name of the constant. -/
def qualifiedName : Label → String
  | .resource r => "SystemResource." ++ r.constant
  | .action a => "PermissionAction." ++ a.constant
  | .scope s => "PermissionScope." ++ s.constant

/-- The word with the given text in the enumeration of the given name. -/
def ofText? (enumeration word : String) : Option Label :=
  if enumeration = "SystemResource" then
    (Resource.values.find? (·.text = word)).map .resource
  else if enumeration = "PermissionAction" then
    (Action.values.find? (·.text = word)).map .action
  else if enumeration = "PermissionScope" then
    (Scope.values.find? (·.text = word)).map .scope
  else none

end Label

end AccessGraph
