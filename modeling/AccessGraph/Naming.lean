/-!
# Names in the destination database

Tables live in two schemas: one for the access graph itself and one for the external identities.
A schema name is a letter or underscore followed by letters, digits and underscores, all ASCII; a
single line feed at the end is tolerated and kept.
-/

namespace AccessGraph

/-- The names of the two schemas. -/
structure Names where
  schema : String
  authSchema : String
  deriving DecidableEq, Repr

namespace Names

/-- The qualified name of a table of the access graph. -/
def table (n : Names) (name : String) : String := n.schema ++ "." ++ name

/-- The qualified name of a table of the external identities. -/
def authTable (n : Names) (name : String) : String := n.authSchema ++ "." ++ name

end Names

/-- Whether a character may start a plain identifier. -/
def isIdentifierStart (c : Char) : Bool := c.isAlpha || c = '_'

/-- Whether characters make a plain identifier. -/
def isIdentifier : List Char → Bool
  | [] => false
  | c :: cs => isIdentifierStart c && cs.all fun d => isIdentifierStart d || d.isDigit

/-- The characters without a line feed at the very end. -/
def dropFinalNewline (cs : List Char) : List Char :=
  if cs.getLast? = some '\n' then cs.dropLast else cs

/-- Whether a text is accepted as the name of a schema. -/
def isSchemaName (s : String) : Bool := isIdentifier (dropFinalNewline s.toList)

namespace Tables

/-- The table of settings. -/
def configuration : String := "configuration"

/-- The table of permissions. -/
def permissions : String := "permissions"

/-- The table of permission groups. -/
def groups : String := "permission_groups"

/-- The table of roles. -/
def roles : String := "roles"

/-- The table of accounts. -/
def accounts : String := "accounts"

/-- The table of external identities. -/
def users : String := "users"

/-- The permissions of groups. -/
def groupPermissions : String := "permission_group_permissions"

/-- The permissions of roles. -/
def rolePermissions : String := "role_permissions"

/-- The permission groups of roles. -/
def roleGroups : String := "role_permission_groups"

/-- The roles of accounts. -/
def accountRoles : String := "account_roles"

/-- The permissions granted to and withheld from accounts. -/
def accountPermissions : String := "account_permissions"

end Tables

end AccessGraph
