import AccessGraph.Preset.Plan

/-!
# The graph to start from

Four sample accounts on four ranked roles.  The accounts and the roles are registered before the
permissions and groups that the roles refer to.
-/

namespace AccessGraph.Preset.Starter

/-- The permissions on the administration system. -/
def systemRights : List SystemRight :=
  [⟨"update_system_data", .table, .update, "Update System Data", "Can update all managed tables"⟩,
   ⟨"manage_permission", .permission, .all, "Manage Permission", "Can manage permissions"⟩,
   ⟨"manage_account", .account, .all, "Manage Account", "Can manage accounts"⟩,
   ⟨"manage_all_auth_users", .authUser, .all, "Manage All Auth Users",
    "Can manage all auth users in the system"⟩,
   ⟨"read_all_auth_users", .authUser, .select, "Read All Auth Users",
    "Can read all auth users in the system"⟩,
   ⟨"manage_roles", .role, .all, "Manage Roles",
    "Can manage all roles (insert, create, update, delete)"⟩]

/-- The permissions on application data. -/
def dataRights : List DataRight :=
  [⟨"read_all_data", "Read All Data", "Can view all data in the system", .table "public" "*",
    .select⟩,
   ⟨"update_all_data", "Update All Data", "Can update all data in the system",
    .table "public" "*", .update⟩,
   ⟨"manage_all_data", "Manage All Data", "Can manage all data in the system",
    .table "public" "*", .all⟩,
   ⟨"update_accounts", "Update Accounts", "Can update all accounts in the system",
    .table "public" "accounts", .update⟩]

/-- The root account, unless another one is given. -/
def sampleRoot : String := "202141c3-2dcd-4417-a01b-f8d7935f1c0c"

/-- The account of the administrator. -/
def sampleAdmin : String := "91659851-467b-4eb0-8120-21b55f24c241"

/-- The account of the member. -/
def sampleMember : String := "4f898e68-bff2-4c31-b279-ed1e79479ea7"

/-- The account that only reads. -/
def sampleReader : String := "e536826e-54ed-4b12-bb79-2803f5de082f"

/-- An account with a name to show and an address. -/
def sampleAccount (id name email : String) : AccountPlan :=
  ⟨id, [("display_name", .text name), ("email", .text email)]⟩

/-- The accounts. -/
def accounts (root : String) : List AccountPlan :=
  [sampleAccount root "Root" "root@example.com",
   sampleAccount sampleAdmin "Admin" "admin@example.com",
   sampleAccount sampleMember "Member" "member@example.com",
   sampleAccount sampleReader "Readonly" "readonly@example.com"]

/-- The roles. -/
def roles : List RolePlan :=
  [⟨"root_role", "Root", "Full system access", 100⟩,
   ⟨"admin_role", "Administrator", "Broad system access", 90⟩,
   ⟨"member_role", "Member", "Limited access to system data", 50⟩,
   ⟨"readonly_role", "Readonly", "Can only view data", 40⟩]

/-- The groups. -/
def groups : List GroupPlan :=
  [⟨"administrator", "Administrator", "Broad Permissions",
    ["update_system_data", "manage_account", "read_all_data", "update_all_data",
     "manage_permission", "manage_all_data", "manage_roles", "manage_all_auth_users"]⟩,
   ⟨"content_management", "Content Management", "Permissions for managing content",
    ["read_all_data", "update_accounts", "read_all_auth_users"]⟩,
   ⟨"readonly", "Read Only", "Read only access to all data",
    ["read_all_data", "read_all_auth_users"]⟩]

/-- The groups of the roles, in the order of their attachment. -/
def attachments : List Command :=
  [attach "member_role" "content_management", attach "admin_role" "administrator",
   attach "root_role" "administrator", attach "readonly_role" "readonly"]

/-- The roles of the accounts. -/
def assignments (root : String) : List Command :=
  [assign root "root_role", assign sampleAdmin "admin_role", assign sampleMember "member_role",
   assign sampleReader "readonly_role"]

/-- The plan for the given root account. -/
def plan (root : String) : List Command :=
  (accounts root).map AccountPlan.command ++ roles.map RolePlan.command
    ++ rights systemRights dataRights ++ groups.flatMap GroupPlan.commands
    ++ attachments ++ assignments root

end AccessGraph.Preset.Starter
