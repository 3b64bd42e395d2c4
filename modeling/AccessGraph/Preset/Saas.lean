import AccessGraph.Preset.Plan

/-!
# The graph for a service with many tenants

Six ranked roles from root down to read-only, each backed by one group.
-/

namespace AccessGraph.Preset.Saas

/-- The permissions on the administration system. -/
def systemRights : List SystemRight :=
  [⟨"manage_system_settings", .systemSetting, .all, "Manage System Settings",
    "Full CRUD access to manage system settings"⟩,
   ⟨"manage_accounts", .account, .all, "Manage Accounts",
    "Full CRUD access to manage user accounts"⟩,
   ⟨"read_accounts", .account, .select, "Read Accounts", "Read access to user accounts"⟩,
   ⟨"update_accounts", .account, .update, "Update Accounts", "Update user accounts"⟩,
   ⟨"delete_accounts", .account, .delete, "Delete Accounts", "Delete user accounts"⟩,
   ⟨"manage_roles", .role, .all, "Manage Roles", "Full CRUD access to manage roles"⟩,
   ⟨"read_roles", .role, .select, "Read Roles", "Read access to roles"⟩,
   ⟨"update_roles", .role, .update, "Update Roles", "Update roles"⟩,
   ⟨"manage_permissions", .permission, .all, "Manage Permissions",
    "Full CRUD access to manage permissions"⟩,
   ⟨"read_permissions", .permission, .select, "Read Permissions", "Read access to permissions"⟩,
   ⟨"update_permissions", .permission, .update, "Update Permissions", "Update permissions"⟩,
   ⟨"manage_tables", .table, .all, "Manage Tables",
    "Full access to manage table metadata and configurations"⟩,
   ⟨"read_tables", .table, .select, "Read Tables", "Read access to table metadata"⟩,
   ⟨"update_tables", .table, .update, "Update Tables", "Update table metadata and configurations"⟩,
   ⟨"read_logs", .log, .select, "Read Logs", "Read access to system logs"⟩,
   ⟨"manage_auth_users", .authUser, .all, "Manage Auth Users",
    "Full access to manage Supabase auth users"⟩,
   ⟨"read_auth_users", .authUser, .select, "Read System Auth Users",
    "Read access to Supabase auth users"⟩,
   ⟨"update_auth_users", .authUser, .update, "Update Auth Users", "Update Supabase auth users"⟩]

/-- The permissions on application data. -/
def dataRights : List DataRight :=
  [⟨"manage_all_storage", "Manage All Storage", "Full access to manage all storage", .storage,
    .all⟩,
   ⟨"read_all_storage", "Read All Storage", "Read access to all storage", .storage, .select⟩,
   ⟨"manage_all_tables", "Manage All Tables", "Full CRUD access to all tables in public schema",
    .table "public" "*", .all⟩,
   ⟨"read_all_tables", "Read All Tables", "Read access to all tables in public schema",
    .table "public" "*", .select⟩,
   ⟨"read_auth_table", "Read Auth Table", "Read access to Supabase auth table",
    .table "auth" "users", .select⟩,
   ⟨"update_all_tables", "Update All Tables", "Update access to all tables in public schema",
    .table "public" "*", .update⟩,
   ⟨"insert_all_tables", "Insert All Tables", "Insert access to all tables in public schema",
    .table "public" "*", .insert⟩]

/-- The groups. -/
def groups : List GroupPlan :=
  [⟨"super_admin_group", "Super Admin", "Full system access - all permissions",
    ["manage_accounts", "manage_all_tables", "delete_accounts", "manage_roles",
     "manage_permissions", "manage_tables", "read_logs", "manage_auth_users",
     "manage_system_settings", "manage_all_storage", "read_auth_table"]⟩,
   ⟨"admin_group", "Administrator", "Administrative access to most system functions",
    ["read_accounts", "update_accounts", "read_roles", "read_permissions", "update_permissions",
     "update_roles", "update_tables", "read_tables", "read_logs", "read_auth_users",
     "update_auth_users", "manage_all_tables", "manage_all_storage", "read_auth_table"]⟩,
   ⟨"manager_group", "Manager", "Content management and basic admin functions",
    ["read_accounts", "read_roles", "read_tables", "read_logs", "read_auth_users",
     "read_all_tables", "update_all_tables", "insert_all_tables", "read_all_storage"]⟩,
   ⟨"support_group", "Customer Support", "Customer support access - read mostly, limited updates",
    ["read_accounts", "update_accounts", "read_tables", "read_logs", "read_auth_users",
     "read_all_tables", "read_auth_table"]⟩,
   ⟨"readonly_group", "Read Only", "Read-only access to data and basic system info",
    ["read_accounts", "read_roles", "read_tables", "read_logs", "read_auth_users",
     "read_all_tables", "read_permissions", "read_auth_table"]⟩,
   ⟨"developer_group", "Developer", "Technical access for developers and DevOps",
    ["read_accounts", "read_roles", "read_permissions", "manage_tables", "read_logs",
     "read_auth_users", "manage_all_tables", "read_all_storage", "read_auth_table"]⟩]

/-- The roles, each with the group that is attached to it. -/
def roles : List (RolePlan × String) :=
  [(⟨"root_role", "Root", "Ultimate system access - use with extreme caution", 100⟩,
    "super_admin_group"),
   (⟨"admin_role", "Admin", "Administrative access to system functions", 90⟩,
    "admin_group"),
   (⟨"manager_role", "Manager", "Content management and basic admin functions", 70⟩,
    "manager_group"),
   (⟨"developer_role", "Developer", "Technical access for development and maintenance", 80⟩,
    "developer_group"),
   (⟨"support_role", "Customer Support", "Customer support and assistance functions", 60⟩,
    "support_group"),
   (⟨"readonly_role", "Read Only", "Read-only access to system data", 50⟩,
    "readonly_group")]

/-- The commands for a role and the attachment of its group. -/
def roleCommands (role : RolePlan × String) : List Command :=
  [role.1.command, attach role.1.id role.2]

/-- The plan for the given root account. -/
def plan (root : String) : List Command :=
  rights systemRights dataRights ++ groups.flatMap GroupPlan.commands
    ++ roles.flatMap roleCommands
    ++ [AccountPlan.command ⟨root, []⟩, assign root "root_role", optionalMfa]

end AccessGraph.Preset.Saas
