import AccessGraph.Registry.Link

/-!
# Plans of ready-made graphs

A ready-made graph is written down as data: permissions, groups with their permissions, ranked
roles and accounts.  Each piece turns into the commands that register it and its references; a plan
is the list of all of them.
-/

namespace AccessGraph.Preset

/-- A permission on a resource of the administration system. -/
structure SystemRight where
  id : String
  resource : Resource
  action : Action
  name : String
  description : String

/-- What a permission on application data extends to: tables, or everything in storage. -/
inductive Extent where
  | table (schema table : String)
  | storage

/-- A permission on application data. -/
structure DataRight where
  id : String
  name : String
  description : String
  extent : Extent
  action : Action

/-- A group with its permissions. -/
structure GroupPlan where
  id : String
  name : String
  description : String
  permissions : List String

/-- A ranked role. -/
structure RolePlan where
  id : String
  name : String
  description : String
  rank : Int

/-- An account with its metadata. -/
structure AccountPlan where
  id : String
  metadata : Table

/-- The scope of an extent. -/
def Extent.scope : Extent → Scope
  | .table _ _ => .table
  | .storage => .storage

/-- The schema of an extent. -/
def Extent.schemaName : Extent → Value
  | .table name _ => .text name
  | .storage => .null

/-- The tables of an extent. -/
def Extent.tableName : Extent → Value
  | .table _ name => .text name
  | .storage => .null

/-- Storage is located by a bucket and a path, here all of them. -/
def Extent.metadata : Extent → Value
  | .table _ _ => .null
  | .storage => .ofTable [("bucket_name", .text "*"), ("path_pattern", .text "*")]

/-- The command that registers a permission on the administration system. -/
def SystemRight.command (s : SystemRight) : Command :=
  .define (.systemPermission s.id (.label (.resource s.resource)) (.label (.action s.action))
    (.text s.name) (.text s.description) .null)

/-- The command that registers a permission on application data. -/
def DataRight.command (d : DataRight) : Command :=
  .define (.dataPermission d.id (.text d.name) (.label (.scope d.extent.scope))
    (.label (.action d.action)) (.text d.description) d.extent.schemaName d.extent.tableName .null
    .null .null d.extent.metadata)

/-- The commands that register a group and give it its permissions. -/
def GroupPlan.commands (g : GroupPlan) : List Command :=
  .define (.group g.id
      (.ofTable [("name", .text g.name), ("description", .text g.description)]))
    :: g.permissions.map fun p => .link (.groupPermission g.id (.text p))

/-- The command that registers a role. -/
def RolePlan.command (o : RolePlan) : Command :=
  .define (.role o.id (.ofTable
    [("name", .text o.name), ("description", .text o.description), ("rank", .int o.rank)]))

/-- The command that registers an account. -/
def AccountPlan.command (a : AccountPlan) : Command :=
  .define (.account (.text a.id) (.ofTable [("metadata", .ofTable a.metadata)]))

/-- The command that attaches a group to a role. -/
def attach (role group : String) : Command :=
  .link (.roleGroup role (.text group) Terms.none)

/-- The command that assigns a role to an account. -/
def assign (account role : String) : Command := .link (.accountRole account (.text role))

/-- The command that registers the setting for a second factor, which no ready-made graph
requires. -/
def optionalMfa : Command := .define (.requiredMfa false)

/-- The commands that register permissions. -/
def rights (system : List SystemRight) (data : List DataRight) : List Command :=
  system.map SystemRight.command ++ data.map DataRight.command

/-- The root account of a graph that has no sample accounts. -/
def rootAccount : String := "00000000-0000-0000-0000-000000000001"

end AccessGraph.Preset
