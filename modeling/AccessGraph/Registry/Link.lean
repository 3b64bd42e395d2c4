import AccessGraph.Registry.Basic

/-!
# Links between entities

A link adds one reference to one list of its owner, at the end.  What it refers to is captured by
the value of its identifier, the way it was given, or by its name, and need not be registered; an
identifier that is no text is kept like any other, and never leads anywhere.  `Registry.apply`
carries out one command, a definition or a link, wholly or not at all; `Registry.run` carries out a
list of them and stops at the first that fails, keeping what was done before.
-/

namespace AccessGraph

/-- The validity and metadata given with a link. -/
structure Terms where
  validFrom : Value
  validUntil : Value
  metadata : Value

/-- No terms. -/
def Terms.none : Terms := ⟨.null, .null, .null⟩

/-- The fields that terms add to a configuration: both ends of the window, and metadata unless
absent. -/
def Terms.fields (t : Terms) : Table :=
  [("valid_from", t.validFrom), ("valid_until", t.validUntil)]
    ++ givenFields [("metadata", t.metadata)]

/-- A reference that an owner is to hold. -/
inductive Link where
  | groupPermission (group : String) (permission : Value)
  | rolePermission (role : String) (permission : Value)
  | roleGroup (role : String) (group : Value) (terms : Terms)
  | accountRole (account : String) (role : Value)
  | override (account : String) (isGrant : Bool) (permission : Value) (terms : Terms)

namespace Registry

/-- The attachment of a group on the given terms. -/
def assignment (group : Value) (terms : Terms) : Except Error Assignment :=
  (Assignment.parse (.ofTable (("group_id", group) :: terms.fields))).orInvalid
    "role permission group assignment"

/-- The grant or denial of a permission on the given terms. -/
def overrideOf (isGrant : Bool) (permission : Value) (terms : Terms) : Except Error Override :=
  (Override.parse (.ofTable
    ([("permission_name", permission), ("is_grant", .bool isGrant)] ++ terms.fields))).orInvalid
    "account permission override"

/-- Changes a registered group. -/
def modifyGroup (r : Registry) (id : String) (f : Group → Group) : Registry :=
  { r with groups := r.groups.modify id (Entry.map f) }

/-- Changes a registered role. -/
def modifyRole (r : Registry) (id : String) (f : Role → Role) : Registry :=
  { r with roles := r.roles.modify id (Entry.map f) }

/-- Changes a registered account. -/
def modifyAccount (r : Registry) (id : String) (f : Account → Account) : Registry :=
  { r with accounts := r.accounts.modify id (Entry.map f) }

/-- Adds a link to its owner. -/
def link (r : Registry) : Link → Except Error Registry
  | .groupPermission id permission => do
    -- The owner has to be registered; what it is linked to need not be.
    let _ ← r.group id
    return r.modifyGroup id fun g => { g with permissions := g.permissions ++ [permission] }
  | .rolePermission id permission => do
    let _ ← r.role id
    return r.modifyRole id fun o => { o with permissions := o.permissions ++ [permission] }
  | .roleGroup id group terms => do
    let _ ← r.role id
    let a ← assignment group terms
    return r.modifyRole id fun o => { o with assignments := o.assignments ++ [a] }
  | .accountRole id role => do
    let _ ← r.account id
    return r.modifyAccount id fun a => { a with roles := a.roles ++ [role] }
  | .override id isGrant permission terms => do
    -- A missing owner is told before terms that are not accepted.
    let _ ← r.account id
    let o ← overrideOf isGrant permission terms
    return r.modifyAccount id fun a => { a with overrides := a.overrides ++ [o] }

end Registry

/-- A step in building a graph. -/
inductive Command where
  | define (definition : Definition)
  | script (kind : Kind) (id : Identifier) (script : Scripted)
  | link (link : Link)

namespace Registry

/-- Carries out one command. -/
def apply (r : Registry) : Command → Except Error Registry
  | .define d => r.define d
  | .script kind id s => r.script kind id s
  | .link l => r.link l

/-- Carries out commands up to the first that fails; tells the error with the graph reached. -/
def run (r : Registry) : List Command → Registry × Option Error
  | [] => (r, none)
  | c :: cs =>
    match r.apply c with
    | .ok r => r.run cs
    | .error e => (r, some e)

end Registry

end AccessGraph
