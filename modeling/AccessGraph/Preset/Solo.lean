import AccessGraph.Preset.Plan

/-!
# The graph for a single operator

One operator holds every permission, through one group and one role.
-/

namespace AccessGraph.Preset.Solo

/-- The permissions on the administration system. -/
def systemRights : List SystemRight :=
  [⟨"manage_system_settings", .systemSetting, .all, "Manage System Settings",
    "Full control over system configuration and settings"⟩,
   ⟨"manage_accounts", .account, .all, "Manage All Accounts",
    "Complete account management - create, read, update, delete"⟩,
   ⟨"manage_roles", .role, .all, "Manage All Roles",
    "Complete role management and hierarchy configuration"⟩,
   ⟨"manage_permissions", .permission, .all, "Manage All Permissions",
    "Complete permission system administration"⟩,
   ⟨"manage_tables", .table, .all, "Manage Table Metadata",
    "Full control over table configurations and metadata"⟩,
   ⟨"read_logs", .log, .select, "Access Audit Logs",
    "Full access to system audit logs and activity tracking"⟩,
   ⟨"manage_system_auth_users", .authUser, .all, "Manage System Auth Users",
    "Manage access to all auth users in the system"⟩]

/-- The permissions on application data. -/
def dataRights : List DataRight :=
  [⟨"manage_all_public_tables", "Manage All Public Tables",
    "Complete CRUD access to all tables in public schema", .table "public" "*", .all⟩,
   ⟨"read_auth_users_table", "Read Auth Users Table",
    "Read access to all auth users in the system", .table "auth" "users", .select⟩,
   ⟨"manage_all_storage", "Manage All Storage",
    "Complete storage management across all buckets and paths", .storage, .all⟩]

/-- The group that holds every permission. -/
def group : GroupPlan :=
  ⟨"solopreneur_group", "Solopreneur Complete Access",
    "Comprehensive permissions for solo business owners - full system control",
    systemRights.map SystemRight.id ++ dataRights.map DataRight.id⟩

/-- The role of the operator. -/
def role : RolePlan :=
  ⟨"solopreneur_role", "Solopreneur",
    "Complete system access for business owners working independently", 100⟩

/-- The plan for the given root account. -/
def plan (root : String) : List Command :=
  rights systemRights dataRights ++ group.commands
    ++ [role.command, attach role.id group.id, AccountPlan.command ⟨root, []⟩,
      assign root role.id, optionalMfa]

end AccessGraph.Preset.Solo
