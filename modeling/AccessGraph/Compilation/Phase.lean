import AccessGraph.Registry.Validation

/-!
# The phases of a compilation

A compilation runs through ten phases: the rows of the five kinds, then the four relations between
them, then the overrides.  Later rows find earlier ones by natural keys, so the order is fixed.  A
phase yields items, each a statement or a reference that was skipped because its target is not
registered; only an entity that fails to emit makes a phase fail.
-/

namespace AccessGraph

/-- A phase of a compilation. -/
inductive Phase where
  | settings | permissions | groups | roles | accounts
  | groupPermissions | rolePermissions | roleGroups | accountRoles | overrides
  deriving DecidableEq, Repr

namespace Phase

/-- The phases in their order. -/
def all : List Phase :=
  [.settings, .permissions, .groups, .roles, .accounts, .groupPermissions, .rolePermissions,
   .roleGroups, .accountRoles, .overrides]

/-- What a phase does, in words. -/
def title : Phase → String
  | .settings => "Creating system settings"
  | .permissions => "Creating permissions"
  | .groups => "Creating permission groups"
  | .roles => "Creating roles"
  | .accounts => "Creating accounts"
  | .groupPermissions => "Assigning permissions to permission groups"
  | .rolePermissions => "Assigning permissions to roles"
  | .roleGroups => "Assigning permission groups to roles"
  | .accountRoles => "Assigning roles to accounts"
  | .overrides => "Creating account permission overrides"

/-- The comment that opens the statements of a phase. -/
def marker (p : Phase) : String := "-- " ++ p.title

/-- The list of phases leaves none out. -/
theorem mem_all (p : Phase) : p ∈ all := by cases p <;> decide

end Phase

/-- A piece of the output of a compilation. -/
inductive Item where
  | statement (text : String)
  | skipped (reference : Reference)

namespace Item

/-- The statement of an item that is one. -/
def statement? : Item → Option String
  | .statement text => some text
  | .skipped _ => none

/-- The reference that an item tells to be skipped. -/
def skipped? : Item → Option Reference
  | .statement _ => none
  | .skipped reference => some reference

end Item

/-- The concatenated outcomes of a step on the members of a list, up to the first failure. -/
def gather {ε α β : Type} (f : α → Except ε (List β)) : List α → Except ε (List β)
  | [] => .ok []
  | a :: as =>
    match f a with
    | .error e => .error e
    | .ok bs => (gather f as).map (bs ++ ·)

/-- Whether an emission is a list of statements. -/
def Emission.isList : Emission → Bool
  | .statements _ => true
  | _ => false

/-- Whether the script of an entity emits a list of statements. -/
def Entry.emitsList {α : Type} (e : Entry α) : Bool :=
  e.elim (fun _ => false) fun s => s.emission.isList

/-- The statements of an emission. -/
def Emission.texts : Emission → List String
  | .statement text => [text]
  | .statements texts => texts
  | .failure _ => []

/-- The statements of an emission where a list of statements is due: a text there counts as the
list of its characters. -/
def Emission.members : Emission → List String
  | .statement text => text.toList.map Char.toString
  | e => e.texts

/-- An emission as items. -/
def emitted (split : Emission → List String) (e : Except Failure Emission) :
    Except Failure (List Item) :=
  e.map fun emission => (split emission).map Item.statement

/-- The subquery that finds the row of a permission. -/
def Entry.findPermission (names : Names) (e : Entry Permission) : String :=
  e.elim (Permission.lookup names) Scripted.lookup

/-- The subquery that finds the row of a group. -/
def Entry.findGroup (names : Names) (e : Entry Group) : String :=
  e.elim (Group.lookup names) Scripted.lookup

/-- The subquery that finds the row of a role. -/
def Entry.findRole (names : Names) (e : Entry Role) : String :=
  e.elim (Role.lookup names) Scripted.lookup

/-- The subquery that finds the row of an account. -/
def Entry.findAccount (names : Names) (e : Entry Account) : String :=
  e.elim (Account.lookup names) Scripted.lookup

/-- The row that records a reference, or the reference itself if its target is not registered. -/
def linkItem {β : Type} (targets : Store β) (row : β → Sql.Row) (ref : Reference) : Item :=
  match ref.targetId.text?.bind targets.get? with
  | some target => .statement (row target).link
  | none => .skipped ref

namespace Registry

/-- The row that gives a permission to a group. -/
def groupPermissionRow (names : Names) (g : Entry Group) (p : Entry Permission) : Sql.Row :=
  ⟨names.table Tables.groupPermissions,
    [("group_id", g.findGroup names), ("permission_id", p.findPermission names),
     ("added_at", "NOW()")]⟩

/-- The row that gives a permission to a role. -/
def rolePermissionRow (names : Names) (o : Entry Role) (p : Entry Permission) : Sql.Row :=
  ⟨names.table Tables.rolePermissions,
    [("role_id", o.findRole names), ("permission_id", p.findPermission names)]⟩

/-- The row that attaches a group to a role. -/
def roleGroupRow (names : Names) (o : Entry Role) (g : Entry Group) : Sql.Row :=
  ⟨names.table Tables.roleGroups,
    [("role_id", o.findRole names), ("group_id", g.findGroup names), ("assigned_at", "NOW()")]⟩

/-- The row that assigns a role to an account. -/
def accountRoleRow (names : Names) (a : Entry Account) (o : Entry Role) : Sql.Row :=
  ⟨names.table Tables.accountRoles,
    [("account_id", a.findAccount names), ("role_id", o.findRole names),
     ("assigned_at", "NOW()")]⟩

/-- The row of an override. -/
def overrideItem (names : Names) (a : Entry Account) (o : Override) :
    Except Failure (List Item) :=
  emitted Emission.texts (spreadRow (o.row names (a.findAccount names)))

/-- The items of a phase. -/
def items (r : Registry) : Phase → Except Failure (List Item)
  | .settings => gather (fun e => emitted Emission.texts (Setting.emit r.names e)) r.settings.toList
  | .permissions =>
    gather (fun e => emitted Emission.texts (Permission.emit r.names e)) r.permissions.toList
  | .groups => gather (fun e => emitted Emission.texts (Group.emit r.names e)) r.groups.toList
  | .roles => gather (fun e => emitted Emission.texts (Role.emit r.names e)) r.roles.toList
  | .accounts =>
    gather (fun e => emitted Emission.members (Account.emit r.names e)) r.accounts.toList
  -- Links never fail: a target that is missing is skipped.
  | .groupPermissions =>
    .ok (r.groups.toList.flatMap fun g =>
      g.permissionsOfGroup.map (linkItem r.permissions (groupPermissionRow r.names g)))
  | .rolePermissions =>
    .ok (r.roles.toList.flatMap fun o =>
      o.permissionsOfRole.map (linkItem r.permissions (rolePermissionRow r.names o)))
  | .roleGroups =>
    .ok (r.roles.toList.flatMap fun o =>
      o.groupsOfRole.map (linkItem r.groups (roleGroupRow r.names o)))
  | .accountRoles =>
    .ok (r.accounts.toList.flatMap fun a =>
      a.rolesOfAccount.map (linkItem r.roles (accountRoleRow r.names a)))
  | .overrides =>
    gather (fun a => gather (overrideItem r.names a) a.accountOverrides) r.accounts.toList

end Registry

end AccessGraph
