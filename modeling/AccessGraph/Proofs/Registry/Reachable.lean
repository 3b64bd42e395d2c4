import AccessGraph.Proofs.Config.Reading
import AccessGraph.Proofs.Lists
import AccessGraph.Proofs.Outcome
import AccessGraph.Registry.Entity

/-!
# Reachable registries

`Registry.Change` says what a successful definition or link does to a registry, one constructor for
each of them.  `Registry.Built` holds of the registries that such steps lead to, and
`Registry.Built.sound` is what they all have in common: entities stand under their own identifiers
and came out of their checks, identifiers are distinct within a kind, and so are the names of
permissions, of groups and of roles.
-/

namespace AccessGraph

/-- A configuration that came out of its check. -/
def Accepted {α : Type} (parse : Value → Checked α) (a : α) : Prop := ∃ v, parse v = .ok a

/-! ## What a step does -/

/-- A refusal as invalid adds nothing where there is a result. -/
theorem Checked.orInvalid_eq_ok {α : Type} {subject : String} {c : Checked α} {a : α} :
    c.orInvalid subject = .ok a ↔ c = .ok a := by
  cases c <;> simp [orInvalid]

/-- Something is registered in a store just if its identifier is free. -/
theorem Store.register_eq_ok {α : Type} {s t : Store α} {kind : Kind} {id : Identifier} {a : α} :
    s.register kind id a = .ok t ↔ s.contains id.text = false ∧ t = s.push id.text a := by
  unfold register
  by_cases hid : s.contains id.text = true
  · simp [hid]
  · simp [hid, eq_comm]

/-- Something is registered in a store whose members have names of their own just if its identifier
and its name are free. -/
theorem Store.registerNamed_eq_ok {α : Type} {s t : Store α} {kind : Kind} {name : α → String}
    {id : Identifier} {a : α} :
    s.registerNamed kind name id a = .ok t ↔
      s.contains id.text = false ∧ (∀ b ∈ s.toList, name b ≠ name a) ∧ t = s.push id.text a := by
  unfold registerNamed
  -- The identifier is looked at before the name.
  by_cases hid : s.contains id.text = true
  · simp [hid]
  · by_cases hname : s.toList.any (name · == name a) = true
    · simp only [hid, hname, Bool.false_eq_true, ↓reduceIte, reduceCtorEq, false_iff, not_and]
      intro _ hfree
      obtain ⟨b, hb, heq⟩ := List.any_eq_true.mp hname
      exact absurd (beq_iff_eq.mp heq) (hfree b hb)
    · have hfree : ∀ b ∈ s.toList, name b ≠ name a := fun b hb heq =>
        hname (List.any_eq_true.mpr ⟨b, hb, beq_iff_eq.mpr heq⟩)
      rw [if_neg hid, if_neg hname, Except.ok.injEq, eq_comm]
      exact ⟨fun ht => ⟨by simpa using hid, hfree, ht⟩, fun h => h.2.2⟩

namespace Registry

/-- An identifier that is accepted is not empty. -/
theorem nonEmptyIdentifier_ne_empty {v : Value} {e : Error} {id : Identifier}
    (h : nonEmptyIdentifier v e = .ok id) : id.text ≠ "" := by
  unfold nonEmptyIdentifier at h
  split at h
  · next i _ =>
    by_cases hempty : i.text.isEmpty = true
    · simp [hempty] at h
    · rw [if_neg hempty] at h
      obtain rfl := Except.ok.inj h
      simpa using hempty
  · simp at h

/-- What is found in a store is contained in it. -/
private theorem contains_of_find {α : Type} {s : Store α} {kind : Kind} {id : Identifier} {a : α}
    (h : find s kind id = .ok a) : s.contains id.text = true := by
  unfold find at h
  split at h
  · next b hb => rw [Store.contains, hb, Option.isSome_some]
  · simp at h

/-- What a successful definition or link makes of a registry. -/
inductive Change (r : Registry) : Registry → Prop
  | setting (s : Setting) : s.key.text ≠ "" → r.settings.contains s.key.text = false →
    Change r { r with settings := r.settings.push s.key.text (.configured s) }
  | permission (p : Permission) : Accepted PermissionConfig.parse p.config →
    r.permissions.contains p.id.text = false →
    (∀ e ∈ r.permissions.toList, e.permissionName ≠ p.name) →
    Change r { r with permissions := r.permissions.push p.id.text (.configured p) }
  | group (id : Identifier) (c : GroupConfig) : Accepted GroupConfig.parse c →
    r.groups.contains id.text = false → (∀ e ∈ r.groups.toList, e.groupName ≠ c.name) →
    Change r { r with groups := r.groups.push id.text (.configured ⟨id, c, []⟩) }
  | role (id : Identifier) (c : RoleConfig) : Accepted RoleConfig.parse c →
    r.roles.contains id.text = false → (∀ e ∈ r.roles.toList, e.roleName ≠ c.name) →
    Change r { r with roles := r.roles.push id.text (.configured ⟨id, c, [], []⟩) }
  | account (id : Identifier) (c : AccountConfig) : id.text ≠ "" →
    Accepted AccountConfig.parse c → r.accounts.contains id.text = false →
    Change r { r with accounts := r.accounts.push id.text (.configured ⟨id, c, [], []⟩) }
  | groupPermission (id : String) (v : Value) : r.groups.contains id = true →
    Change r (r.modifyGroup id fun g => { g with permissions := g.permissions ++ [v] })
  | rolePermission (id : String) (v : Value) : r.roles.contains id = true →
    Change r (r.modifyRole id fun o => { o with permissions := o.permissions ++ [v] })
  | roleGroup (id : String) (a : Assignment) : r.roles.contains id = true →
    Accepted Assignment.parse a →
    Change r (r.modifyRole id fun o => { o with assignments := o.assignments ++ [a] })
  | accountRole (id : String) (v : Value) : r.accounts.contains id = true →
    Change r (r.modifyAccount id fun a => { a with roles := a.roles ++ [v] })
  | override (id : String) (o : Override) : r.accounts.contains id = true →
    Accepted Override.parse o →
    Change r (r.modifyAccount id fun a => { a with overrides := a.overrides ++ [o] })

/-- A definition that succeeds is one of the changes. -/
theorem change_of_define {r t : Registry} {d : Definition} (h : r.define d = .ok t) :
    Change r t := by
  -- Each case takes the steps of the definition apart: the checks first, the registration last.
  cases d with
  | setting key value =>
    obtain ⟨id, hid, h⟩ := Except.bind_eq_ok.mp h
    split at h
    · obtain ⟨s, hs, rfl⟩ := Except.map_eq_ok.mp h
      obtain ⟨hfree, rfl⟩ := Store.register_eq_ok.mp hs
      exact .setting ⟨id, _⟩ (nonEmptyIdentifier_ne_empty hid) hfree
    · simp at h
  | permission id config =>
    obtain ⟨c, hc, h⟩ := Except.bind_eq_ok.mp h
    obtain ⟨s, hs, rfl⟩ := Except.map_eq_ok.mp h
    obtain ⟨hfree, hname, rfl⟩ := Store.registerNamed_eq_ok.mp hs
    exact .permission ⟨id, c⟩ ⟨config, Checked.orInvalid_eq_ok.mp hc⟩ hfree hname
  | group id config =>
    obtain ⟨c, hc, h⟩ := Except.bind_eq_ok.mp h
    obtain ⟨s, hs, rfl⟩ := Except.map_eq_ok.mp h
    obtain ⟨hfree, hname, rfl⟩ := Store.registerNamed_eq_ok.mp hs
    exact .group id c ⟨config, Checked.orInvalid_eq_ok.mp hc⟩ hfree hname
  | role id config =>
    obtain ⟨c, hc, h⟩ := Except.bind_eq_ok.mp h
    obtain ⟨s, hs, rfl⟩ := Except.map_eq_ok.mp h
    obtain ⟨hfree, hname, rfl⟩ := Store.registerNamed_eq_ok.mp hs
    exact .role id c ⟨config, Checked.orInvalid_eq_ok.mp hc⟩ hfree hname
  | account id config =>
    obtain ⟨id, hid, h⟩ := Except.bind_eq_ok.mp h
    obtain ⟨c, hc, h⟩ := Except.bind_eq_ok.mp h
    obtain ⟨s, hs, rfl⟩ := Except.map_eq_ok.mp h
    obtain ⟨hfree, rfl⟩ := Store.register_eq_ok.mp hs
    exact .account id c (nonEmptyIdentifier_ne_empty hid) ⟨_, Checked.orInvalid_eq_ok.mp hc⟩ hfree

/-- A link that succeeds is one of the changes. -/
theorem change_of_link {r t : Registry} {l : Link} (h : r.link l = .ok t) : Change r t := by
  -- Each case finds the owner first; only the checked links check anything more.
  cases l with
  | groupPermission id v =>
    obtain ⟨_, hfind, h⟩ := Except.bind_eq_ok.mp h
    obtain rfl := Except.ok.inj h
    exact .groupPermission id v (contains_of_find hfind)
  | rolePermission id v =>
    obtain ⟨_, hfind, h⟩ := Except.bind_eq_ok.mp h
    obtain rfl := Except.ok.inj h
    exact .rolePermission id v (contains_of_find hfind)
  | roleGroup id v terms =>
    obtain ⟨_, hfind, h⟩ := Except.bind_eq_ok.mp h
    obtain ⟨a, ha, h⟩ := Except.bind_eq_ok.mp h
    obtain rfl := Except.ok.inj h
    exact .roleGroup id a (contains_of_find hfind) ⟨_, Checked.orInvalid_eq_ok.mp ha⟩
  | accountRole id v =>
    obtain ⟨_, hfind, h⟩ := Except.bind_eq_ok.mp h
    obtain rfl := Except.ok.inj h
    exact .accountRole id v (contains_of_find hfind)
  | override id isGrant v terms =>
    obtain ⟨_, hfind, h⟩ := Except.bind_eq_ok.mp h
    obtain ⟨o, ho, h⟩ := Except.bind_eq_ok.mp h
    obtain rfl := Except.ok.inj h
    exact .override id o (contains_of_find hfind) ⟨_, Checked.orInvalid_eq_ok.mp ho⟩

end Registry

/-! ## What steps keep -/

theorem Store.not_mem_keys {α : Type} {s : Store α} {id : String} (h : s.contains id = false) :
    id ∉ s.keys := by
  rw [← Store.contains_iff_mem_keys, h]
  exact Bool.false_ne_true

/-- Every entity of a store is configured, as it should be, and under its own identifier; no
identifier is taken twice. -/
structure Store.Sound {α : Type} (s : Store (Entry α)) (id : α → Identifier)
    (good : α → Prop) : Prop where
  keys : s.keys.Nodup
  entries : ∀ e ∈ s.entries, ∃ a, e = ((id a).text, .configured a) ∧ good a

namespace Store.Sound

variable {α : Type} {s : Store (Entry α)} {id : α → Identifier} {good : α → Prop}

/-- An empty store is sound. -/
theorem empty : (Store.empty : Store (Entry α)).Sound id good :=
  ⟨List.nodup_nil, by simp [Store.empty]⟩

/-- A good member under its own free identifier keeps a store sound. -/
theorem push (h : s.Sound id good) {a : α} (hfree : s.contains (id a).text = false)
    (ha : good a) : (s.push (id a).text (.configured a)).Sound id good := by
  refine ⟨?_, ?_⟩
  · refine nodup_map_concat h.keys fun e he heq => Store.not_mem_keys hfree ?_
    exact List.mem_map.mpr ⟨e, he, heq⟩
  · intro e he
    rcases List.mem_append.mp he with he | he
    · exact h.entries e he
    · exact ⟨a, List.mem_singleton.mp he, ha⟩

/-- A change that keeps identifiers and leaves good members good keeps a store sound. -/
theorem modify (h : s.Sound id good) (k : String) {f : α → α} (hid : ∀ a, id (f a) = id a)
    (hgood : ∀ a, good a → good (f a)) : (s.modify k (Entry.map f)).Sound id good := by
  refine ⟨by rw [Store.keys_modify]; exact h.keys, ?_⟩
  intro e he
  obtain ⟨d, hd, rfl⟩ := List.mem_map.mp he
  obtain ⟨a, rfl, ha⟩ := h.entries d hd
  -- Only the entity under the given identifier changes.
  by_cases hk : (id a).text = k
  · exact ⟨f a, by simp [hk, hid, Entry.map], hgood a ha⟩
  · exact ⟨a, by simp [hk], ha⟩

/-- An entity of the store is configured and as it should be. -/
theorem mem_toList (h : s.Sound id good) {e : Entry α} (he : e ∈ s.toList) :
    ∃ a, e = .configured a ∧ good a := by
  obtain ⟨d, hd, rfl⟩ := List.mem_map.mp he
  obtain ⟨a, rfl, ha⟩ := h.entries d hd
  exact ⟨a, rfl, ha⟩

/-- A store names its entities by their own identifiers. -/
theorem keys_eq (h : s.Sound id good) :
    s.keys = s.toList.map fun e => (e.elim id Scripted.identifier).text := by
  rw [Store.keys, Store.toList, List.map_map]
  refine List.map_congr_left fun e he => ?_
  obtain ⟨a, rfl, -⟩ := h.entries e he
  rfl

end Store.Sound

/-- A change of entities that keeps what is told of them keeps the list of that. -/
theorem Store.map_toList_modify {α β : Type} (s : Store α) (k : String) {f : α → α}
    {tell : α → β} (htell : ∀ a, tell (f a) = tell a) :
    (s.modify k f).toList.map tell = s.toList.map tell := by
  simp only [toList, modify, List.map_map]
  refine List.map_congr_left fun e _ => ?_
  by_cases hk : e.1 = k
  · simp [hk, htell]
  · simp [hk]

/-- Names stay distinct when a new one is added. -/
private theorem nodup_names_push {α : Type} {s : Store α} {name : α → String} {id : String} {a : α}
    (h : (s.toList.map name).Nodup) (hfree : ∀ b ∈ s.toList, name b ≠ name a) :
    ((s.push id a).toList.map name).Nodup := by
  rw [Store.toList_push]
  exact nodup_map_concat h hfree

/-- A role with an accepted configuration and accepted assignments. -/
def Role.Sound (o : Role) : Prop :=
  Accepted RoleConfig.parse o.config ∧ ∀ a ∈ o.assignments, Accepted Assignment.parse a

/-- An account with an identifier, an accepted configuration and accepted overrides. -/
def Account.Sound (a : Account) : Prop :=
  a.id.text ≠ "" ∧ Accepted AccountConfig.parse a.config ∧
    ∀ o ∈ a.overrides, Accepted Override.parse o

namespace Registry

section

variable {defaults : Names} {schema auth : Option String}

/-- A registry is opened, without entities, if both names in effect are accepted. -/
theorem create_eq_ok {r : Registry} :
    create defaults schema auth = .ok r ↔
      isSchemaName (orDefault defaults.schema schema) = true ∧
      isSchemaName (orDefault defaults.authSchema auth) = true ∧
      empty ⟨orDefault defaults.schema schema, orDefault defaults.authSchema auth⟩ = r := by
  cases hschema : isSchemaName (orDefault defaults.schema schema) with
  | false => simp [create, Names.check, hschema, Except.map]
  | true =>
    cases hauth : isSchemaName (orDefault defaults.authSchema auth) with
    | false => simp [create, Names.check, hschema, hauth, Except.map]
    | true => simp [create, Names.check, hschema, hauth, Except.map]

/-- A schema name that is not accepted is told first. -/
theorem create_of_schema (h : isSchemaName (orDefault defaults.schema schema) = false) :
    create defaults schema auth
      = .error (.schemaName .schema (orDefault defaults.schema schema)) := by
  simp [create, Names.check, h, Except.map]

/-- A name of the other schema that is not accepted is told next. -/
theorem create_of_authSchema (hschema : isSchemaName (orDefault defaults.schema schema) = true)
    (hauth : isSchemaName (orDefault defaults.authSchema auth) = false) :
    create defaults schema auth
      = .error (.schemaName .auth (orDefault defaults.authSchema auth)) := by
  simp [create, Names.check, hschema, hauth, Except.map]

end

/-- What reachable registries have in common. -/
structure Sound (r : Registry) : Prop where
  schema : isSchemaName r.names.schema = true
  authSchema : isSchemaName r.names.authSchema = true
  settings : r.settings.Sound Setting.key fun s => s.key.text ≠ ""
  permissions : r.permissions.Sound Permission.id fun p => Accepted PermissionConfig.parse p.config
  groups : r.groups.Sound Group.id fun g => Accepted GroupConfig.parse g.config
  roles : r.roles.Sound Role.id Role.Sound
  accounts : r.accounts.Sound Account.id Account.Sound
  permissionNames : (r.permissions.toList.map Entry.permissionName).Nodup
  groupNames : (r.groups.toList.map Entry.groupName).Nodup
  roleNames : (r.roles.toList.map Entry.roleName).Nodup

/-- What is created is sound. -/
theorem Sound.create {defaults : Names} {schema auth : Option String} {r : Registry}
    (h : create defaults schema auth = .ok r) : Sound r := by
  obtain ⟨hschema, hauth, rfl⟩ := create_eq_ok.mp h
  exact ⟨hschema, hauth, .empty, .empty, .empty, .empty, .empty, List.nodup_nil,
    List.nodup_nil, List.nodup_nil⟩

/-- What reachable registries have in common is kept by every step. -/
theorem Sound.change {r t : Registry} (h : Sound r) (hstep : Change r t) : Sound t := by
  cases hstep with
  -- Definitions add an entity with an identifier, and a name if it has one, that were free.
  | setting s hkey hfree => exact { h with settings := h.settings.push hfree hkey }
  | permission p hp hfree hname =>
    exact { h with
      permissions := h.permissions.push hfree hp
      permissionNames := nodup_names_push h.permissionNames hname }
  | group id c hc hfree hname =>
    exact { h with
      groups := h.groups.push (a := ⟨id, c, []⟩) hfree hc
      groupNames := nodup_names_push h.groupNames hname }
  | role id c hc hfree hname =>
    exact { h with
      roles := h.roles.push (a := ⟨id, c, [], []⟩) hfree ⟨hc, by simp⟩
      roleNames := nodup_names_push h.roleNames hname }
  | account id c hid hc hfree =>
    exact { h with
      accounts := h.accounts.push (a := ⟨id, c, [], []⟩) hfree ⟨hid, hc, by simp⟩ }
  -- Links change an entity in its place, and neither its identifier nor its name.
  | groupPermission id v hid =>
    refine { h with groups := h.groups.modify id (fun _ => rfl) fun _ hg => hg, groupNames := ?_ }
    rw [modifyGroup, Store.map_toList_modify _ _ fun e => by cases e <;> rfl]
    exact h.groupNames
  | rolePermission id v hid =>
    refine { h with roles := h.roles.modify id (fun _ => rfl) fun _ ho => ho, roleNames := ?_ }
    rw [modifyRole, Store.map_toList_modify _ _ fun e => by cases e <;> rfl]
    exact h.roleNames
  | roleGroup id a hid ha =>
    refine { h with
      roles := h.roles.modify id (fun _ => rfl) fun o ho => ⟨ho.1, ?_⟩
      roleNames := ?_ }
    · intro b hb
      rcases List.mem_append.mp hb with hb | hb
      · exact ho.2 b hb
      · exact List.mem_singleton.mp hb ▸ ha
    · rw [modifyRole, Store.map_toList_modify _ _ fun e => by cases e <;> rfl]
      exact h.roleNames
  | accountRole id v hid =>
    exact { h with accounts := h.accounts.modify id (fun _ => rfl) fun _ ha => ha }
  | override id o hid ho =>
    refine { h with
      accounts := h.accounts.modify id (fun _ => rfl) fun a ha => ⟨ha.1, ha.2.1, ?_⟩ }
    intro b hb
    rcases List.mem_append.mp hb with hb | hb
    · exact ha.2.2 b hb
    · exact List.mem_singleton.mp hb ▸ ho

/-! ## Reachability -/

/-- The registries that definitions and links lead to from an opened one. -/
inductive Built : Registry → Prop
  | create {defaults : Names} {schema auth : Option String} {r : Registry} :
    create defaults schema auth = .ok r → Built r
  | define {r t : Registry} {d : Definition} : Built r → r.define d = .ok t → Built t
  | link {r t : Registry} {l : Link} : Built r → r.link l = .ok t → Built t

/-- What is built is sound. -/
theorem Built.sound {r : Registry} (h : Built r) : Sound r := by
  -- Every registry on the way has the invariant, since each step keeps it.
  induction h with
  | create h => exact .create h
  | define _ h ih => exact ih.change (change_of_define h)
  | link _ h ih => exact ih.change (change_of_link h)

/-- Running commands leads from one such registry to another, wherever it stops, unless one of the
commands registers a script. -/
theorem Built.run {r : Registry} (h : Built r) {cs : List Command}
    (hcs : ∀ kind id s, Command.script kind id s ∉ cs) : Built (r.run cs).1 := by
  induction cs generalizing r with
  | nil => exact h
  | cons c cs ih =>
    -- A command that succeeds is one more step; one that fails ends the run where it is.
    have hrest : ∀ kind id s, Command.script kind id s ∉ cs := fun kind id s hmem =>
      hcs kind id s (List.mem_cons_of_mem c hmem)
    rw [Registry.run]
    split
    · next t ht =>
      cases c with
      | define d => exact ih (.define h ht) hrest
      | link l => exact ih (.link h ht) hrest
      | script kind id s => exact absurd List.mem_cons_self (hcs kind id s)
    · exact h

/-- A small graph: a role with a group of one permission, and an account with the role and a grant;
one reference leads nowhere. -/
def sample : Registry :=
  ((empty ⟨"access", "auth"⟩).run
    [.define (.setting (.text "motto") (.text "it's; -- fine")),
      .define (.systemPermission "p" (.text "account") (.text "select") (.text "read") .null .null),
      .define (.group "g" (.ofTable [("name", .text "staff")])),
      .define (.role "r" (.ofTable [("name", .text "clerk"), ("rank", .int 3)])),
      .define (.account (.text "a") .null),
      .link (.groupPermission "g" (.text "p")),
      .link (.groupPermission "g" (.text "gone")),
      .link (.roleGroup "r" (.text "g") .none),
      .link (.accountRole "a" (.text "r")),
      .link (.override "a" true (.text "read") .none)]).1

theorem built_empty : (empty ⟨"access", "auth"⟩).Built :=
  .create (r := empty _) (show create ⟨"access", "auth"⟩ none none = _ by rfl)

theorem built_sample : sample.Built := built_empty.run (by simp)

end Registry

/-! ## Entities of a reachable registry -/

/-- The kinds in the order in which their rows are written. -/
def Kind.all : List Kind := [.setting, .permission, .group, .role, .account]

/-- The entities of a kind, in the order of their registration. -/
def Registry.ofKind (r : Registry) : Kind → List Entity
  | .setting => r.settings.toList.map .setting
  | .permission => r.permissions.toList.map .permission
  | .group => r.groups.toList.map .group
  | .role => r.roles.toList.map .role
  | .account => r.accounts.toList.map .account

/-- All entities of a registry, kind by kind. -/
def Registry.entities (r : Registry) : List Entity := Kind.all.flatMap r.ofKind

/-- Entities as they are registered by definitions. -/
inductive Entity.Sound : Entity → Prop
  | setting (s : Setting) : s.key.text ≠ "" → Sound (.setting (.configured s))
  | permission (p : Permission) : Accepted PermissionConfig.parse p.config →
    Sound (.permission (.configured p))
  | group (g : Group) : Accepted GroupConfig.parse g.config → Sound (.group (.configured g))
  | role (o : Role) : o.Sound → Sound (.role (.configured o))
  | account (a : Account) : a.Sound → Sound (.account (.configured a))

/-- Each entity of a sound registry is sound. -/
theorem Registry.Sound.entity {r : Registry} (h : r.Sound) {e : Entity} (he : e ∈ r.entities) :
    e.Sound := by
  obtain ⟨kind, -, he⟩ := List.mem_flatMap.mp he
  -- The store of the kind says what its members satisfy.
  cases kind with
  | setting =>
    obtain ⟨d, hd, rfl⟩ := List.mem_map.mp he
    obtain ⟨s, rfl, hs⟩ := h.settings.mem_toList hd
    exact .setting s hs
  | permission =>
    obtain ⟨d, hd, rfl⟩ := List.mem_map.mp he
    obtain ⟨p, rfl, hp⟩ := h.permissions.mem_toList hd
    exact .permission p hp
  | group =>
    obtain ⟨d, hd, rfl⟩ := List.mem_map.mp he
    obtain ⟨g, rfl, hg⟩ := h.groups.mem_toList hd
    exact .group g hg
  | role =>
    obtain ⟨d, hd, rfl⟩ := List.mem_map.mp he
    obtain ⟨o, rfl, ho⟩ := h.roles.mem_toList hd
    exact .role o ho
  | account =>
    obtain ⟨d, hd, rfl⟩ := List.mem_map.mp he
    obtain ⟨a, rfl, ha⟩ := h.accounts.mem_toList hd
    exact .account a ha

end AccessGraph
