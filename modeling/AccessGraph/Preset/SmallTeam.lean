import AccessGraph.Preset.Plan

/-!
# The graph for a small team

A global administrator, developers and customer support, with separated duties.
-/

namespace AccessGraph.Preset.SmallTeam

/-- The permissions on the administration system. -/
def systemRights : List SystemRight :=
  [⟨"manage_system_settings", .systemSetting, .all, "Manage System Settings",
    "Full control over system configuration"⟩,
   ⟨"manage_accounts", .account, .all, "Manage Accounts", "Full account management capabilities"⟩,
   ⟨"manage_roles", .role, .all, "Manage Roles", "Complete role management"⟩,
   ⟨"manage_permissions", .permission, .all, "Manage Permissions",
    "Full permission system control"⟩,
   ⟨"manage_tables", .table, .all, "Manage Tables", "Full table metadata management"⟩,
   ⟨"manage_auth_users", .authUser, .all, "Manage Auth Users", "Complete auth user management"⟩,
   ⟨"read_accounts", .account, .select, "Read Accounts", "View account information"⟩,
   ⟨"read_roles", .role, .select, "Read Roles", "View role information"⟩,
   ⟨"read_permissions", .permission, .select, "Read Permissions", "View permission information"⟩,
   ⟨"read_tables", .table, .select, "Read Tables", "View table metadata"⟩,
   ⟨"read_logs", .log, .select, "Read Logs", "Access to audit logs"⟩,
   ⟨"read_auth_users", .authUser, .select, "Read System Auth Users", "View auth user information"⟩,
   ⟨"update_accounts", .account, .update, "Update Accounts",
    "Update customer account information"⟩,
   ⟨"update_auth_users", .authUser, .update, "Update Auth Users", "Update auth user information"⟩]

/-- The permissions on application data. -/
def dataRights : List DataRight :=
  [⟨"manage_all_tables", "Manage All Tables", "Full CRUD access to all database tables",
    .table "public" "*", .all⟩,
   ⟨"read_all_tables", "Read All Tables", "Read access to all database tables",
    .table "public" "*", .select⟩,
   ⟨"update_customer_data", "Update Customer Data", "Update customer-related tables",
    .table "public" "customers,orders,support_tickets", .update⟩,
   ⟨"manage_all_storage", "Manage All Storage", "Full storage management access", .storage, .all⟩,
   ⟨"read_all_storage", "Read All Storage", "Read access to storage files", .storage, .select⟩,
   ⟨"read_auth_table", "Read Auth Table", "Read access to the auth users table",
    .table "auth" "users", .select⟩]

/-- The groups, each with the role that it is attached to. -/
def teams : List (GroupPlan × RolePlan) :=
  [(⟨"global_admin_group", "Global Administrator",
    "Complete system administration - full access to all features",
    ["manage_system_settings", "manage_accounts", "manage_roles", "manage_permissions",
     "manage_tables", "manage_auth_users", "read_logs", "manage_all_tables", "manage_all_storage",
     "read_auth_table"]⟩,
    ⟨"global_admin_role", "Global Admin", "Ultimate system administrator with complete access",
    100⟩),
   (⟨"developer_group", "Developer",
    "Technical access for development, debugging, and maintenance",
    ["read_accounts", "read_roles", "read_permissions", "manage_tables", "read_logs",
     "read_auth_users", "manage_all_tables", "read_all_storage", "read_auth_table"]⟩,
    ⟨"developer_role", "Developer",
    "Technical team member with development and maintenance access", 80⟩),
   (⟨"customer_support_group", "Customer Support",
    "Customer assistance - read access with limited update capabilities",
    ["read_accounts", "update_accounts", "read_tables", "read_logs", "read_auth_users",
     "update_auth_users", "read_all_tables", "update_customer_data", "read_all_storage",
     "read_auth_table"]⟩,
    ⟨"customer_support_role", "Customer Support",
    "Support team member focused on customer assistance", 60⟩)]

/-- The metadata of the root account. -/
def rootMetadata : Table :=
  [("display_name", .text "Team Lead / Admin"), ("email", .text "admin@company.com"),
   ("department", .text "Leadership"),
   ("notes", .text "Global administrator with complete system access")]

/-- The commands for a group and its role. -/
def teamCommands (team : GroupPlan × RolePlan) : List Command :=
  team.1.commands ++ [team.2.command, attach team.2.id team.1.id]

/-- The plan for the given root account. -/
def plan (root : String) : List Command :=
  rights systemRights dataRights ++ teams.flatMap teamCommands
    ++ [AccountPlan.command ⟨root, rootMetadata⟩, assign root "global_admin_role", optionalMfa]

end AccessGraph.Preset.SmallTeam
