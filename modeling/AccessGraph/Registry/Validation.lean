import AccessGraph.Registry.Basic

/-!
# Strict validation

Validation walks the references of roles and of accounts and fails on the first one whose target is
not registered.  The references of all roles come first; within a role those to permissions precede
those to groups.  The references of groups, and overrides, are not asked about.
-/

namespace AccessGraph

/-- The references of one owner to entities of one kind. -/
def references (ownerKind : Kind) (ownerId : Identifier) (targetKind : Kind)
    (ids : List Value) : List Reference :=
  ids.map fun id => ⟨ownerKind, ownerId, targetKind, id⟩

namespace Entry

/-- The references of a group. -/
def permissionsOfGroup (e : Entry Group) : List Reference :=
  references .group e.groupId .permission e.groupPermissions

/-- The references of a role to permissions. -/
def permissionsOfRole (e : Entry Role) : List Reference :=
  references .role e.roleId .permission e.rolePermissions

/-- The references of a role to groups. -/
def groupsOfRole (e : Entry Role) : List Reference :=
  references .role e.roleId .group e.roleGroups

/-- The references of an account. -/
def rolesOfAccount (e : Entry Account) : List Reference :=
  references .account e.accountId .role e.accountRoles

end Entry

namespace Registry

/-- Whether the target of a reference is registered: its identifier has to be the text of one. -/
def resolves (r : Registry) (ref : Reference) : Bool :=
  ref.targetId.text?.any (r.has ref.targetKind)

/-- The references that strict validation asks about, in its order. -/
def strictReferences (r : Registry) : List Reference :=
  r.roles.toList.flatMap (fun e => e.permissionsOfRole ++ e.groupsOfRole)
    ++ r.accounts.toList.flatMap Entry.rolesOfAccount

/-- Fails on the first reference of a role or an account that does not resolve. -/
def validate (r : Registry) : Except Error Unit :=
  match r.strictReferences.find? fun ref => !r.resolves ref with
  | some ref => .error (.dangling ref)
  | none => .ok ()

/-- Validation passes if each reference that it looks at is to something registered. -/
theorem validate_eq_ok_iff (r : Registry) :
    r.validate = .ok () ↔ ∀ ref ∈ r.strictReferences, r.resolves ref = true := by
  unfold validate
  split
  · next ref h =>
    simp only [reduceCtorEq, false_iff]
    intro hall
    have hbad := List.find?_some h
    simp [hall ref (List.mem_of_find?_eq_some h)] at hbad
  · next h => simpa using h

end Registry

end AccessGraph
