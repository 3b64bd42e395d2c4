import AccessGraph.Proofs.Compilation.References

/-!
# Strict validation against compilation

Strict validation goes from owner to owner and stops at the first reference that dangles; a
compilation goes from relation to relation and reports them all.  `Registry.FirstDangling` tells
which reference strict validation stops at, and `Registry.diagnostics_of_compile` what a compilation
reports, whatever the entities emit.

Both agree on roles and accounts (`Registry.validation_agrees_with_compilation`).  Strict validation
does not ask about the permissions of groups, so it can pass where a compilation skips one of them
(`Registry.validation_passes_over_group`); nothing else is skipped after it has passed.
-/

namespace AccessGraph

/-! ## What a compilation skips -/

/-- What holds of the members of all outcomes holds of the gathered members. -/
private theorem forall_mem_of_gather {ε α β : Type} {f : α → Except ε (List β)} {p : β → Prop}
    (hf : ∀ a bs, f a = .ok bs → ∀ b ∈ bs, p b) {as : List α} {bs : List β}
    (h : gather f as = .ok bs) : ∀ b ∈ bs, p b := by
  -- The induction takes the members apart as the steps left them.
  induction as generalizing bs with
  | nil =>
    obtain rfl := Except.ok.inj h
    simp
  | cons a as ih =>
    rw [gather] at h
    split at h
    · simp at h
    · next cs hcs =>
      obtain ⟨ds, hds, rfl⟩ := Except.map_eq_ok.mp h
      exact List.forall_mem_append.mpr ⟨hf a cs hcs, ih hds⟩

/-- Nothing is skipped where an entity is written. -/
private theorem skipped?_of_emitted {split : Emission → List String} {e : Except Failure Emission}
    {items : List Item} (h : emitted split e = .ok items) : ∀ i ∈ items, i.skipped? = none := by
  obtain ⟨emission, -, rfl⟩ := Except.map_eq_ok.mp h
  intro i hi
  obtain ⟨t, -, rfl⟩ := List.mem_map.mp hi
  rfl

namespace Registry

variable {r : Registry}

/-- A phase that succeeds skips the references of its relation that lead nowhere; the phases of
entities and overrides skip nothing, whatever is emitted there. -/
private theorem filterMap_skipped?_of_items {p : Phase} {items : List Item}
    (h : r.items p = .ok items) :
    items.filterMap Item.skipped? = (r.skips p).map Visit.reference := by
  have hnone : (∀ i ∈ items, i.skipped? = none) → items.filterMap Item.skipped? = [] :=
    List.filterMap_eq_nil_iff.mpr
  -- Only the phases of relations skip anything.
  cases p using Phase.byContent with
  | rows kind =>
    rw [skips_kind]
    cases kind <;> exact hnone (forall_mem_of_gather (fun _ _ => skipped?_of_emitted) h)
  | links relation =>
    rw [items_relation] at h
    obtain rfl := Except.ok.inj h
    rw [skips_relation]
    exact (filterMap_visitItem (r.visits relation)).2
  | overrides =>
    refine hnone (forall_mem_of_gather (fun a _ ha => ?_) h)
    exact forall_mem_of_gather (fun _ _ => skipped?_of_emitted) ha

/-- What a run of phases skips is what each phase does, in order. -/
private theorem filterMap_skipped?_of_runPhases {ps : List Phase} {items : List Item}
    (h : (r.runPhases ps).2 = .ok items) :
    items.filterMap Item.skipped? = (ps.flatMap r.skips).map Visit.reference := by
  -- Each phase skips its own, and the induction goes on with the items of the others.
  induction ps generalizing items with
  | nil =>
    obtain rfl := Except.ok.inj h
    rfl
  | cons p ps ih =>
    rw [runPhases] at h
    split at h
    · simp at h
    · next here hhere =>
      obtain ⟨more, hmore, rfl⟩ := Except.map_eq_ok.mp h
      simp [List.filterMap_cons, filterMap_skipped?_of_items hhere, ih hmore]

/-- The diagnostics of a compilation are those of the references that lead nowhere. -/
theorem diagnostics_of_compile {c : Compilation} (h : r.compile.result = .ok c) :
    c.diagnostics = (Relation.all.flatMap r.missing).map fun v => v.reference.diagnostic := by
  simp only [compile] at h
  -- Only a compilation that went through all phases has diagnostics.
  split at h
  · next items hitems =>
    split at h
    · simp at h
    · obtain rfl := Except.ok.inj h
      simp only [Compilation.ofItems, filterMap_skipped?_of_runPhases hitems, flatMap_skips_all,
        List.map_map]
      rfl
  · simp at h

/-! ## The first dangling reference -/

/-- Whether a value is the identifier of a registered entity of a kind. -/
def Registered (r : Registry) (kind : Kind) (v : Value) : Prop :=
  ∃ id, v.text? = some id ∧ r.has kind id = true

/-- A reference resolves if its target is registered. -/
theorem resolves_iff {ref : Reference} :
    r.resolves ref = true ↔ r.Registered ref.targetKind ref.targetId :=
  Option.any_eq_true _ _

/-- A reference dangles if its target is not registered. -/
theorem resolves_eq_false_iff {ref : Reference} :
    r.resolves ref = false ↔ ¬ r.Registered ref.targetKind ref.targetId := by
  rw [← resolves_iff, Bool.not_eq_true]

instance (r : Registry) (kind : Kind) (v : Value) : Decidable (r.Registered kind v) :=
  decidable_of_iff (v.text?.any (r.has kind) = true) (Option.any_eq_true _ _)

/-- A role without dangling references. -/
structure CleanRole (r : Registry) (o : Entry Role) : Prop where
  permissions : ∀ v ∈ o.rolePermissions, r.Registered .permission v
  groups : ∀ v ∈ o.roleGroups, r.Registered .group v

/-- An account without dangling references. -/
def CleanAccount (r : Registry) (a : Entry Account) : Prop :=
  ∀ v ∈ a.accountRoles, r.Registered .role v

/-- The first dangling reference of the roles and accounts: roles come before accounts, both in the
order of registration, and the permissions of a role before its groups, both in the order of their
list. -/
inductive FirstDangling (r : Registry) : Reference → Prop
  | rolePermission {before after : List (Entry Role)} {o : Entry Role}
    {ids rest : List Value} {v : Value} :
    r.roles.toList = before ++ o :: after → (∀ b ∈ before, r.CleanRole b) →
    o.rolePermissions = ids ++ v :: rest → (∀ i ∈ ids, r.Registered .permission i) →
    ¬ r.Registered .permission v → FirstDangling r ⟨.role, o.roleId, .permission, v⟩
  | roleGroup {before after : List (Entry Role)} {o : Entry Role}
    {ids rest : List Value} {v : Value} :
    r.roles.toList = before ++ o :: after → (∀ b ∈ before, r.CleanRole b) →
    (∀ i ∈ o.rolePermissions, r.Registered .permission i) →
    o.roleGroups = ids ++ v :: rest → (∀ i ∈ ids, r.Registered .group i) →
    ¬ r.Registered .group v → FirstDangling r ⟨.role, o.roleId, .group, v⟩
  | accountRole {before after : List (Entry Account)} {a : Entry Account}
    {ids rest : List Value} {v : Value} :
    (∀ o ∈ r.roles.toList, r.CleanRole o) →
    r.accounts.toList = before ++ a :: after → (∀ b ∈ before, r.CleanAccount b) →
    a.accountRoles = ids ++ v :: rest → (∀ i ∈ ids, r.Registered .role i) →
    ¬ r.Registered .role v → FirstDangling r ⟨.account, a.accountId, .role, v⟩

/-- The first of the references of one owner that dangles. -/
private theorem find?_references_eq_some {ownerKind targetKind : Kind} {owner : Identifier}
    {ids : List Value} {ref : Reference} :
    (references ownerKind owner targetKind ids).find? (fun ref => !r.resolves ref) = some ref ↔
      ∃ before v after, ids = before ++ v :: after ∧
        (∀ i ∈ before, r.Registered targetKind i) ∧ ¬ r.Registered targetKind v ∧
        ref = ⟨ownerKind, owner, targetKind, v⟩ := by
  -- The search over references is one over the identifiers of the targets.
  rw [references, List.find?_map, Option.map_eq_some_iff]
  simp only [List.find?_eq_some_iff_append, Function.comp_apply, Bool.not_not,
    Bool.not_eq_true', resolves_iff, resolves_eq_false_iff]
  constructor
  · intro h
    obtain ⟨v, ⟨hv, before, after, hids, hbefore⟩, rfl⟩ := h
    exact ⟨before, v, after, hids, hbefore, hv, rfl⟩
  · intro h
    obtain ⟨before, v, after, hids, hbefore, hv, rfl⟩ := h
    exact ⟨v, ⟨hv, before, after, hids, hbefore⟩, rfl⟩

/-- No reference to any of the targets dangles just if all are registered. -/
private theorem find?_references_eq_none {ownerKind targetKind : Kind} {owner : Identifier}
    {ids : List Value} :
    (references ownerKind owner targetKind ids).find? (fun ref => !r.resolves ref) = none ↔
      ∀ v ∈ ids, r.Registered targetKind v := by
  simp [references, resolves_iff]

/-- A role has no dangling reference just when none is found among its references. -/
private theorem cleanRole_iff {o : Entry Role} :
    (o.permissionsOfRole ++ o.groupsOfRole).find? (fun ref => !r.resolves ref) = none ↔
      r.CleanRole o := by
  rw [List.find?_append, Option.or_eq_none_iff, Entry.permissionsOfRole, Entry.groupsOfRole,
    find?_references_eq_none, find?_references_eq_none]
  exact ⟨fun h => ⟨h.1, h.2⟩, fun h => ⟨h.permissions, h.groups⟩⟩

/-- What is found among the strict references is the first dangling one. -/
private theorem find?_strictReferences_iff {ref : Reference} :
    r.strictReferences.find? (fun ref => !r.resolves ref) = some ref ↔ r.FirstDangling ref := by
  -- The search goes through the roles first, and through the accounts only if it finds nothing.
  rw [strictReferences, List.find?_append, Option.or_eq_some_iff, List.find?_flatMap,
    List.find?_flatMap, List.findSome?_eq_some_iff, List.findSome?_eq_some_iff,
    List.findSome?_eq_none_iff]
  simp only [cleanRole_iff, Entry.rolesOfAccount, find?_references_eq_none]
  constructor
  · intro h
    rcases h with ⟨before, o, after, hroles, ho, hbefore⟩ | ⟨hclean, before, a, after, hl, ha, hb⟩
    · rw [List.find?_append, Option.or_eq_some_iff] at ho
      rcases ho with ho | ⟨hnone, ho⟩
      · obtain ⟨ids, v, rest, hids, hall, hv, rfl⟩ := find?_references_eq_some.mp ho
        exact .rolePermission hroles hbefore hids hall hv
      · obtain ⟨ids, v, rest, hids, hall, hv, rfl⟩ := find?_references_eq_some.mp ho
        exact .roleGroup hroles hbefore (find?_references_eq_none.mp hnone) hids hall hv
    · obtain ⟨ids, v, rest, hids, hall, hv, rfl⟩ := find?_references_eq_some.mp ha
      exact .accountRole hclean hl hb hids hall hv
  · intro h
    cases h with
    | rolePermission hroles hbefore hids hall hv =>
      refine .inl ⟨_, _, _, hroles, ?_, hbefore⟩
      rw [List.find?_append, Option.or_eq_some_iff]
      exact .inl (find?_references_eq_some.mpr ⟨_, _, _, hids, hall, hv, rfl⟩)
    | roleGroup hroles hbefore hpermissions hids hall hv =>
      refine .inl ⟨_, _, _, hroles, ?_, hbefore⟩
      rw [List.find?_append, Option.or_eq_some_iff]
      exact .inr ⟨find?_references_eq_none.mpr hpermissions,
        find?_references_eq_some.mpr ⟨_, _, _, hids, hall, hv, rfl⟩⟩
    | accountRole hclean haccounts hbefore hids hall hv =>
      exact .inr ⟨hclean, _, _, _, haccounts,
        find?_references_eq_some.mpr ⟨_, _, _, hids, hall, hv, rfl⟩, hbefore⟩

/-- Strict validation fails on the first dangling reference, and on nothing else. -/
theorem validate_eq_error_iff {e : Error} :
    r.validate = .error e ↔ ∃ ref, e = .dangling ref ∧ r.FirstDangling ref := by
  simp only [← find?_strictReferences_iff]
  unfold validate
  split
  · next ref href => simp [href, eq_comm]
  · next hnone => simp [hnone]

/-! ## Strict references among the visits -/

/-- The references of a relation are those that its owners hold. -/
private theorem map_reference_visits {α : Type} (relation : Relation) {owners : Store α}
    {owner : α → Entity} (howners : r.ofKind relation.ownerKind = owners.toList.map owner)
    {refs : α → List Reference}
    (hrefs : ∀ a, refs a = ((owner a).targets relation).map fun v =>
      ⟨relation.ownerKind, (owner a).identifier, relation.targetKind, v⟩) :
    (r.visits relation).map Visit.reference = owners.toList.flatMap refs := by
  rw [visits, howners, List.flatMap_map, List.map_flatMap]
  refine List.flatMap_congr fun a _ => ?_
  rw [hrefs, List.map_map]
  rfl

/-- The references that strict validation asks about are those of roles and accounts. -/
theorem mem_strictReferences {ref : Reference} :
    ref ∈ r.strictReferences ↔
      ∃ relation, relation ≠ .groupPermission ∧ ∃ v ∈ r.visits relation, v.reference = ref := by
  have hpermissions : (r.visits .rolePermission).map Visit.reference
      = r.roles.toList.flatMap Entry.permissionsOfRole :=
    map_reference_visits .rolePermission rfl fun _ => rfl
  have hgroups : (r.visits .roleGroup).map Visit.reference
      = r.roles.toList.flatMap Entry.groupsOfRole :=
    map_reference_visits .roleGroup rfl fun _ => rfl
  have haccounts : (r.visits .accountRole).map Visit.reference
      = r.accounts.toList.flatMap Entry.rolesOfAccount :=
    map_reference_visits .accountRole rfl fun _ => rfl
  -- Validation has the two lists of a role side by side, the visits one behind the other.
  have hroles : ref ∈ r.roles.toList.flatMap (fun e => e.permissionsOfRole ++ e.groupsOfRole) ↔
      ref ∈ r.roles.toList.flatMap Entry.permissionsOfRole ∨
        ref ∈ r.roles.toList.flatMap Entry.groupsOfRole := by
    simp only [List.mem_flatMap, List.mem_append, and_or_left, exists_or]
  rw [strictReferences, List.mem_append, hroles, ← hpermissions, ← hgroups, ← haccounts]
  simp only [List.mem_map]
  constructor
  · intro h
    rcases h with (h | h) | h
    · exact ⟨.rolePermission, by decide, h⟩
    · exact ⟨.roleGroup, by decide, h⟩
    · exact ⟨.accountRole, by decide, h⟩
  · intro h
    obtain ⟨relation, hrelation, h⟩ := h
    cases relation with
    | groupPermission => exact absurd rfl hrelation
    | rolePermission => exact .inl (.inl h)
    | roleGroup => exact .inl (.inr h)
    | accountRole => exact .inr h

/-- Strict validation fails just when some role or account holds a reference that leads nowhere. -/
theorem validate_fails_iff :
    (∃ e, r.validate = .error e) ↔
      ∃ relation, relation ≠ .groupPermission ∧
        ∃ v ∈ r.visits relation, ¬ r.Registered v.relation.targetKind v.target := by
  -- There is no third outcome.
  have hok : (∃ e, r.validate = .error e) ↔ r.validate ≠ .ok () := by
    cases r.validate with
    | error e => simp
    | ok u => simp
  rw [hok, ne_eq, validate_eq_ok_iff]
  simp only [resolves_iff, not_forall, mem_strictReferences]
  constructor
  · intro h
    obtain ⟨_, ⟨relation, hrelation, v, hv, rfl⟩, hmissing⟩ := h
    exact ⟨relation, hrelation, v, hv, hmissing⟩
  · intro h
    obtain ⟨relation, hrelation, v, hv, hmissing⟩ := h
    exact ⟨_, ⟨relation, hrelation, v, hv, rfl⟩, hmissing⟩

/-- The visits of a relation are of that relation. -/
private theorem relation_of_mem_visits {relation : Relation} {v : Visit}
    (hv : v ∈ r.visits relation) :
    v.relation = relation := by
  obtain ⟨e, -, hv⟩ := List.mem_flatMap.mp hv
  obtain ⟨_, -, rfl⟩ := List.mem_map.mp hv
  rfl

/-- The visits that lead nowhere are those to values that are not registered. -/
theorem mem_missing {relation : Relation} {v : Visit} :
    v ∈ r.missing relation ↔
      v ∈ r.visits relation ∧ ¬ r.Registered v.relation.targetKind v.target := by
  have hsome : (v.target? r).isNone = !r.resolves v.reference := by
    rw [← isLeft_outcome, Visit.outcome]
    cases v.target? r <;> rfl
  rw [missing, List.mem_filter, hsome, Bool.not_eq_true', resolves_eq_false_iff]
  rfl

/-- The diagnostics about roles and accounts are those of the references that strict validation
asks about. -/
private theorem mem_strict_diagnostics {c : Compilation} (h : r.compile.result = .ok c)
    {d : Diagnostic} :
    (d ∈ c.diagnostics ∧ (d.relation = "role" ∨ d.relation = "account")) ↔
      ∃ relation, relation ≠ .groupPermission ∧
        ∃ v ∈ r.missing relation, d = v.reference.diagnostic := by
  -- The noun of the owner tells a group's diagnostic from the others.
  have howner : ∀ v : Visit,
      (v.reference.diagnostic.relation = "role" ∨ v.reference.diagnostic.relation = "account") ↔
        v.relation ≠ .groupPermission := by
    intro v
    show (v.relation.ownerKind.innerNoun = "role" ∨ v.relation.ownerKind.innerNoun = "account") ↔ _
    cases v.relation <;> decide
  rw [diagnostics_of_compile h]
  simp only [List.mem_map, List.mem_flatMap]
  constructor
  · intro h
    obtain ⟨⟨v, ⟨relation, -, hv⟩, rfl⟩, hrelation⟩ := h
    rw [howner, relation_of_mem_visits (mem_missing.mp hv).1] at hrelation
    exact ⟨relation, hrelation, v, hv, rfl⟩
  · intro h
    obtain ⟨relation, hrelation, v, hv, rfl⟩ := h
    refine ⟨⟨v, ⟨relation, Relation.mem_all relation, hv⟩, rfl⟩, ?_⟩
    rwa [howner, relation_of_mem_visits (mem_missing.mp hv).1]

/-! ## What strict validation depends on -/

/-- What a store contains depends on its keys alone. -/
private theorem contains_congr {α β : Type} {s : Store α} {t : Store β} (h : s.keys = t.keys) :
    s.contains = t.contains := by
  funext id
  rw [Bool.eq_iff_iff, Store.contains_iff_mem_keys, Store.contains_iff_mem_keys, h]

/-- Strict validation depends on nothing but which permissions and groups are registered, the roles,
and the identifiers and roles of the accounts. -/
theorem validate_congr {t : Registry} (hpermissions : t.permissions.keys = r.permissions.keys)
    (hgroups : t.groups.keys = r.groups.keys) (hroles : t.roles = r.roles)
    (haccounts : (t.accounts.toList.map fun a => (a.accountId, a.accountRoles))
      = r.accounts.toList.map fun a => (a.accountId, a.accountRoles)) :
    t.validate = r.validate := by
  have hreferences : t.strictReferences = r.strictReferences := by
    have hview : ∀ s : Registry, s.accounts.toList.flatMap Entry.rolesOfAccount
        = (s.accounts.toList.map fun a => (a.accountId, a.accountRoles)).flatMap
          fun x => references .account x.1 .role x.2 := by
      intro s
      rw [List.flatMap_map]
      rfl
    rw [strictReferences, strictReferences, hview, hview, hroles, haccounts]
  -- All references asked about lead to permissions, groups or roles.
  have hresolves : ∀ ref ∈ r.strictReferences, (!t.resolves ref) = !r.resolves ref := by
    intro ref href
    obtain ⟨relation, -, v, -, rfl⟩ := mem_strictReferences.mp href
    have hhas : t.has v.relation.targetKind = r.has v.relation.targetKind := by
      cases v.relation with
      | groupPermission => exact contains_congr hpermissions
      | rolePermission => exact contains_congr hpermissions
      | roleGroup => exact contains_congr hgroups
      | accountRole => exact contains_congr (congrArg Store.keys hroles)
    show (!v.target.text?.any (t.has v.relation.targetKind)) = _
    rw [hhas]
    rfl
  rw [validate, validate, hreferences, ← List.head?_filter, ← List.head?_filter,
    List.filter_congr hresolves]

/-! ## Agreement -/

/-- The visits of roles and accounts that lead nowhere, by the lists that hold them. -/
theorem exists_dangling_iff :
    (∃ relation, relation ≠ .groupPermission ∧
        ∃ v ∈ r.visits relation, ¬ r.Registered v.relation.targetKind v.target) ↔
      (∃ o ∈ r.roles.toList, ∃ v ∈ o.rolePermissions, ¬ r.Registered .permission v) ∨
        (∃ o ∈ r.roles.toList, ∃ v ∈ o.roleGroups, ¬ r.Registered .group v) ∨
        ∃ a ∈ r.accounts.toList, ∃ v ∈ a.accountRoles, ¬ r.Registered .role v := by
  constructor
  · intro h
    obtain ⟨relation, hrelation, v, hv, hmissing⟩ := h
    obtain ⟨e, he, hv⟩ := List.mem_flatMap.mp hv
    obtain ⟨i, hi, rfl⟩ := List.mem_map.mp hv
    cases relation with
    | groupPermission => exact absurd rfl hrelation
    | rolePermission =>
      obtain ⟨o, ho, rfl⟩ := List.mem_map.mp he
      exact .inl ⟨o, ho, i, hi, hmissing⟩
    | roleGroup =>
      obtain ⟨o, ho, rfl⟩ := List.mem_map.mp he
      exact .inr (.inl ⟨o, ho, i, hi, hmissing⟩)
    | accountRole =>
      obtain ⟨a, ha, rfl⟩ := List.mem_map.mp he
      exact .inr (.inr ⟨a, ha, i, hi, hmissing⟩)
  · -- An owner with one of its references makes a visit.
    have hvisit : ∀ relation e i, e ∈ r.ofKind (Relation.ownerKind relation) →
        i ∈ e.targets relation → ⟨relation, e, i⟩ ∈ r.visits relation :=
      fun _ _ _ he hi => List.mem_flatMap.mpr ⟨_, he, List.mem_map_of_mem hi⟩
    intro h
    rcases h with ⟨o, ho, i, hi, hmissing⟩ | ⟨o, ho, i, hi, hmissing⟩ | ⟨a, ha, i, hi, hmissing⟩
    · exact ⟨.rolePermission, by decide, _,
        hvisit .rolePermission (.role o) i (List.mem_map_of_mem ho) hi, hmissing⟩
    · exact ⟨.roleGroup, by decide, _,
        hvisit .roleGroup (.role o) i (List.mem_map_of_mem ho) hi, hmissing⟩
    · exact ⟨.accountRole, by decide, _,
        hvisit .accountRole (.account a) i (List.mem_map_of_mem ha) hi, hmissing⟩

/-- The reference that strict validation stops at is reported by a compilation as well. -/
theorem diagnostic_of_validate {ref : Reference} {c : Compilation}
    (hids : ∀ v ∈ r.allVisits, v.target.text?.isSome = true)
    (hv : r.validate = .error (.dangling ref)) (hc : r.compile.result = .ok c) :
    ∃ d ∈ c.diagnostics, (d.relation = "role" ∨ d.relation = "account") ∧
      d.ownerId = ref.ownerId.text ∧ some d.missingId = ref.targetId.text? := by
  -- What validation names is the first of the strict references that dangles.
  obtain ⟨_, heq, hfirst⟩ := validate_eq_error_iff.mp hv
  obtain rfl := Error.dangling.inj heq
  have hfound := find?_strictReferences_iff.mpr hfirst
  obtain ⟨relation, hrelation, v, hvisit, rfl⟩ :=
    mem_strictReferences.mp (List.mem_of_find?_eq_some hfound)
  have hdangling : r.resolves v.reference = false := by simpa using List.find?_some hfound
  have hmissing : v ∈ r.missing relation :=
    mem_missing.mpr ⟨hvisit, resolves_eq_false_iff.mp hdangling⟩
  -- Compilation misses it too, and owners of strict references are roles and accounts.
  obtain ⟨hmem, howner⟩ :=
    (mem_strict_diagnostics hc).mpr ⟨relation, hrelation, v, hmissing, rfl⟩
  have htext : v.target.text?.isSome = true :=
    hids v (List.mem_flatMap.mpr ⟨relation, Relation.mem_all relation, hvisit⟩)
  refine ⟨_, hmem, howner, rfl, ?_⟩
  show some v.reference.missingId = v.target.text?
  rw [missingId_reference htext]
  -- Identifiers that are no text would be told as an empty text, but all of them are.
  cases hid : v.target.text? with
  | none => simp [hid] at htext
  | some id => rfl

/-- Strict validation against compilation, for references to identifiers that are texts.  Strict
validation fails just when a list of permissions or of groups of a role, or a list of roles of an
account, holds an identifier that is not registered, and just when a compilation that succeeds
reports a diagnostic about a role or an account.  It fails on the first dangling reference, which is
among those diagnostics.  It depends neither on settings nor on overrides nor on the permissions of
groups. -/
theorem validation_agrees_with_compilation
    (hids : ∀ v ∈ r.allVisits, v.target.text?.isSome = true) :
    ((∃ e, r.validate = .error e) ↔
      (∃ o ∈ r.roles.toList, ∃ v ∈ o.rolePermissions, ¬ r.Registered .permission v) ∨
        (∃ o ∈ r.roles.toList, ∃ v ∈ o.roleGroups, ¬ r.Registered .group v) ∨
        ∃ a ∈ r.accounts.toList, ∃ v ∈ a.accountRoles, ¬ r.Registered .role v) ∧
    (∀ c, r.compile.result = .ok c →
      ((∃ e, r.validate = .error e) ↔
        ∃ d ∈ c.diagnostics, d.relation = "role" ∨ d.relation = "account")) ∧
    (∀ e, r.validate = .error e ↔ ∃ ref, e = .dangling ref ∧ r.FirstDangling ref) ∧
    (∀ ref c, r.validate = .error (.dangling ref) → r.compile.result = .ok c →
      ∃ d ∈ c.diagnostics, (d.relation = "role" ∨ d.relation = "account") ∧
        d.ownerId = ref.ownerId.text ∧ some d.missingId = ref.targetId.text?) ∧
    ∀ t : Registry, t.permissions.keys = r.permissions.keys → t.groups.keys = r.groups.keys →
      t.roles = r.roles →
      (t.accounts.toList.map fun a => (a.accountId, a.accountRoles))
        = (r.accounts.toList.map fun a => (a.accountId, a.accountRoles)) →
      t.validate = r.validate := by
  refine ⟨validate_fails_iff.trans exists_dangling_iff, ?_, fun _ => validate_eq_error_iff,
    fun _ _ => diagnostic_of_validate hids, fun _ => validate_congr⟩
  -- What is left is to match what dangles with what is reported, relation by relation.
  intro c hc
  rw [validate_fails_iff]
  constructor
  · intro h
    obtain ⟨relation, hrelation, v, hv, hmissing⟩ := h
    obtain ⟨hmem, howner⟩ := (mem_strict_diagnostics hc).mpr
      ⟨relation, hrelation, v, mem_missing.mpr ⟨hv, hmissing⟩, rfl⟩
    exact ⟨_, hmem, howner⟩
  · intro h
    obtain ⟨d, hd, howner⟩ := h
    obtain ⟨relation, hrelation, v, hv, -⟩ := (mem_strict_diagnostics hc).mp ⟨hd, howner⟩
    exact ⟨relation, hrelation, v, (mem_missing.mp hv).1, (mem_missing.mp hv).2⟩

/-- A graph with three dangling references, of which strict validation asks about two: the role
attaches a group that is not registered, and the account is assigned such a role. -/
def tangled : Registry :=
  (sample.run
    [.link (.accountRole "a" (.text "nobody")), .link (.roleGroup "r" (.text "lost") .none)]).1

/-- The first reference that dangles is the one that validation names, and compilation reports it
too. -/
theorem validation_agrees_with_compilation_tangled :
    (∀ v ∈ tangled.allVisits, v.target.text?.isSome = true) ∧
      tangled.validate = .error (.dangling ⟨.role, "r", .group, .text "lost"⟩) ∧
      tangled.FirstDangling ⟨.role, "r", .group, .text "lost"⟩ ∧
      ∃ c, tangled.compile.result = .ok c ∧ ∃ d ∈ c.diagnostics,
        (d.relation = "role" ∨ d.relation = "account") ∧ d.ownerId = "r" ∧
          d.missingId = "lost" := by
  -- The hypothesis and both outcomes are computed.
  have hids : ∀ v ∈ tangled.allVisits, v.target.text?.isSome = true := by decide +kernel
  have hfails : tangled.validate = .error (.dangling ⟨.role, "r", .group, .text "lost"⟩) := rfl
  have hok : tangled.compile.result.isOk = true := by decide +kernel
  obtain ⟨c, hc⟩ := Except.exists_of_isOk hok
  obtain ⟨-, -, hfirst, hdiagnostic, -⟩ := validation_agrees_with_compilation hids
  obtain ⟨ref, heq, hdangling⟩ := (hfirst _).mp hfails
  obtain rfl := Error.dangling.inj heq
  obtain ⟨d, hd, hrelation, howner, hmissing⟩ := hdiagnostic _ c hfails hc
  exact ⟨hids, hfails, hdangling, c, hc, d, hd, hrelation, howner, Option.some.inj hmissing⟩

/-! ## What strict validation passes over -/

/-- After a validation nothing is missing but the permissions of groups. -/
theorem missing_of_validate (hv : r.validate = .ok ()) (relation : Relation)
    (hrelation : relation ≠ .groupPermission) : r.missing relation = [] := by
  rw [List.eq_nil_iff_forall_not_mem]
  intro v hmem
  obtain ⟨hvisit, hmissing⟩ := mem_missing.mp hmem
  obtain ⟨e, he⟩ := validate_fails_iff.mpr ⟨relation, hrelation, v, hvisit, hmissing⟩
  rw [hv] at he
  simp at he

/-- Once strict validation has passed, a compilation reports the permissions of groups that are not
registered, one diagnostic for each, and nothing else; so it reports nothing just when the groups
refer to registered permissions only. -/
theorem diagnostics_after_validation (hv : r.validate = .ok ()) {c : Compilation}
    (hc : r.compile.result = .ok c) :
    c.diagnostics = (r.missing .groupPermission).map (fun v => v.reference.diagnostic) ∧
      (c.diagnostics = [] ↔
        ∀ g ∈ r.groups.toList, ∀ v ∈ g.groupPermissions, r.Registered .permission v) := by
  -- Validation has looked at three of the relations, so that only the fourth is left.
  have hrolePermission := missing_of_validate hv .rolePermission (by decide)
  have hroleGroup := missing_of_validate hv .roleGroup (by decide)
  have haccountRole := missing_of_validate hv .accountRole (by decide)
  have hdiagnostics : c.diagnostics
      = (r.missing .groupPermission).map fun v => v.reference.diagnostic := by
    rw [diagnostics_of_compile hc]
    simp [Relation.all, hrolePermission, hroleGroup, haccountRole]
  refine ⟨hdiagnostics, ?_⟩
  rw [hdiagnostics, List.map_eq_nil_iff, List.eq_nil_iff_forall_not_mem]
  simp only [mem_missing, not_and, not_not]
  -- A visit of the fourth relation is a permission that some group lists.
  constructor
  · intro hall g hg v hmem
    have hvisit : ⟨.groupPermission, .group g, v⟩ ∈ r.visits .groupPermission :=
      List.mem_flatMap.mpr ⟨.group g, List.mem_map_of_mem hg, List.mem_map_of_mem hmem⟩
    exact hall _ hvisit
  · intro hall v hvisit
    obtain ⟨e, he, hmem⟩ := List.mem_flatMap.mp hvisit
    obtain ⟨i, hi, rfl⟩ := List.mem_map.mp hmem
    obtain ⟨g, hg, rfl⟩ := List.mem_map.mp he
    exact hall g hg i hi

/-- A group refers to a permission that is not registered, and validation passes. -/
theorem diagnostics_after_validation_sample :
    sample.validate = .ok () ∧ ∃ c, sample.compile.result = .ok c ∧
      c.diagnostics = (sample.missing .groupPermission).map (fun v => v.reference.diagnostic) ∧
      c.diagnostics ≠ [] := by
  have hv : sample.validate = .ok () := rfl
  have hok : sample.compile.result.isOk = true := by decide +kernel
  obtain ⟨c, hc⟩ := Except.exists_of_isOk hok
  obtain ⟨hdiagnostics, hnone⟩ := diagnostics_after_validation hv hc
  refine ⟨hv, c, hc, hdiagnostics, ?_⟩
  rw [ne_eq, hnone]
  decide +kernel

/-- A graph of one group with a permission that is not registered. -/
def unguarded : Registry :=
  ((empty ⟨"access", "auth"⟩).run
    [.define (.group "g" (.ofTable [("name", .text "Team")])),
      .link (.groupPermission "g" (.text "nope"))]).1

/-- Strict validation passes although a compilation skips the permission of the group. -/
theorem validation_passes_over_group :
    unguarded.Built ∧ unguarded.validate = .ok () ∧
      ∃ c, unguarded.compile.result = .ok c ∧
        c.diagnostics.map (fun d => (d.relation, d.ownerId, d.missingId))
          = [("permission group", "g", "nope")] := by
  have hok : unguarded.compile.result.isOk = true := by decide +kernel
  obtain ⟨c, hc⟩ := Except.exists_of_isOk hok
  refine ⟨built_empty.run (by simp), rfl, c, hc, ?_⟩
  rw [diagnostics_of_compile hc]
  decide +kernel

end Registry

end AccessGraph
