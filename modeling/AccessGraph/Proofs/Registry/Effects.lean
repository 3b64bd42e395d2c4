import AccessGraph.Proofs.Registry.Growth

/-!
# The effect of a command

A command is checked for itself first and against the registry then.  `Definition.described` tells
what a definition describes and `Link.additions` what a link adds, whatever is registered;
`Registry.register` and `Registry.extend` tell what becomes of the registry.  The lemmas
`Registry.define_eq`, `Registry.script_eq` and `Registry.link_eq` say that commands do just this.

`Registry.registrations_enter` and `Registry.registrations_extend` describe the two effects by the
registrations of the registry, which together with its names make it up
(`Registry.ext_registrations`).
-/

namespace AccessGraph

/-! ## Additions to the lists of an entity -/

/-- What is added to the lists of an entity, each time at the end. -/
structure Additions where
  permissions : List Value := []
  assignments : List Assignment := []
  roles : List Value := []
  overrides : List Override := []

namespace Additions

/-- Additions one after another. -/
instance : Append Additions where
  append x y :=
    ⟨x.permissions ++ y.permissions, x.assignments ++ y.assignments, x.roles ++ y.roles,
      x.overrides ++ y.overrides⟩

/-- No additions. -/
instance : EmptyCollection Additions := ⟨⟨[], [], [], []⟩⟩

theorem append_def (x y : Additions) :
    x ++ y = ⟨x.permissions ++ y.permissions, x.assignments ++ y.assignments, x.roles ++ y.roles,
      x.overrides ++ y.overrides⟩ := rfl

@[simp] theorem empty_append (x : Additions) : ∅ ++ x = x := rfl

@[simp] theorem append_empty (x : Additions) : x ++ ∅ = x := by
  rw [append_def]
  exact congr (congr (congr (congrArg mk (List.append_nil _)) (List.append_nil _))
    (List.append_nil _)) (List.append_nil _)

end Additions

namespace Entity

/-- The entity with additions to those lists that it has.  A script has none to add to. -/
def extend (x : Additions) : Entity → Entity
  | .group (.configured g) =>
    .group (.configured { g with permissions := g.permissions ++ x.permissions })
  | .role (.configured o) =>
    .role (.configured { o with
      permissions := o.permissions ++ x.permissions
      assignments := o.assignments ++ x.assignments })
  | .account (.configured a) =>
    .account (.configured { a with
      roles := a.roles ++ x.roles
      overrides := a.overrides ++ x.overrides })
  -- Settings and permissions have no lists, and scripts get nothing.
  | e => e

@[simp] theorem extend_empty (e : Entity) : e.extend ∅ = e := by
  unfold extend
  split <;> simp [EmptyCollection.emptyCollection]

/-- Additions that are made at once, or one after the other. -/
theorem extend_append (e : Entity) (x y : Additions) :
    e.extend (x ++ y) = (e.extend x).extend y := by
  unfold extend
  split <;> simp_all [Additions.append_def]

/-- An entity with additions is that entity at a later time. -/
theorem later_extend (e : Entity) (x : Additions) : e.Later (e.extend x) := by
  unfold extend
  split
  · exact .group _ x.permissions
  · exact .role _ x.permissions x.assignments
  · exact .account _ x.roles x.overrides
  · exact .refl _

end Entity

/-- The registrations of a store with additions to the lists of the entity under an identifier. -/
private theorem Store.registrations_modify {α : Type} (s : Store (Entry α))
    {wrap : Entry α → Entity}
    (id : String) {f : α → α} {x : Additions}
    (hf : ∀ e, wrap (Entry.map f e) = (wrap e).extend x) :
    (s.modify id (Entry.map f)).registrations wrap
      = (s.registrations wrap).map fun y => (y.1, if y.1 = id then y.2.extend x else y.2) := by
  simp only [registrations, modify, List.map_map]
  refine List.map_congr_left fun e _ => ?_
  by_cases hid : e.1 = id
  · simp [hid, hf]
  · simp [hid]

/-- A map that leaves the entities of a store leaves its registrations. -/
theorem Store.map_registrations_self {α : Type} (s : Store α) (wrap : α → Entity)
    (f : Registration → Registration) (hf : ∀ id a, f (id, wrap a) = (id, wrap a)) :
    (s.registrations wrap).map f = s.registrations wrap := by
  rw [registrations, List.map_map]
  exact List.map_congr_left fun e _ => hf e.1 e.2

/-- The registrations of a store make it up. -/
theorem Store.ext_registrations {α : Type} {s t : Store α} {wrap : α → Entity}
    (hwrap : Function.Injective wrap) (h : s.registrations wrap = t.registrations wrap) :
    s = t := by
  obtain ⟨es⟩ := s
  obtain ⟨fs⟩ := t
  have hinj : Function.Injective fun e : String × α => (e.1, wrap e.2) := by
    rintro ⟨k, a⟩ ⟨l, b⟩ hab
    obtain ⟨rfl, hab⟩ := Prod.mk.inj hab
    obtain rfl : a = b := hwrap hab
    rfl
  exact congrArg Store.mk (List.map_injective_iff.mpr hinj h)

/-- What is registered in a store, or the reason why it is not. -/
private theorem Store.register_eq {α : Type} (s : Store α) (kind : Kind) (id : Identifier) (a : α) :
    s.register kind id a
      = if id.text ∈ s.keys then .error (.duplicateId kind id) else .ok (s.push id.text a) := by
  simp only [register, ← contains_iff_mem_keys]

/-- What is registered in a store whose members have names of their own: the identifier is looked at
before the name. -/
private theorem Store.registerNamed_eq {α : Type} (s : Store α) (kind : Kind) (name : α → String)
    (id : Identifier) (a : α) :
    s.registerNamed kind name id a
      = if id.text ∈ s.keys then .error (.duplicateId kind id)
        else if name a ∈ s.toList.map name then .error (.duplicateName kind (name a))
        else .ok (s.push id.text a) := by
  have hname : s.toList.any (name · == name a) = true ↔ name a ∈ s.toList.map name := by
    simp [List.any_eq_true]
  simp only [registerNamed, ← contains_iff_mem_keys, ← hname]

namespace Registry

variable {r t : Registry}

/-! ## The two effects -/

/-- The registry with an entity at the end of those of its kind. -/
def enter (r : Registry) (id : String) : Entity → Registry
  | .setting e => { r with settings := r.settings.push id e }
  | .permission e => { r with permissions := r.permissions.push id e }
  | .group e => { r with groups := r.groups.push id e }
  | .role e => { r with roles := r.roles.push id e }
  | .account e => { r with accounts := r.accounts.push id e }

/-- The registry with additions to the lists of one entity.  Settings and permissions have none. -/
def extend (r : Registry) (kind : Kind) (id : String) (x : Additions) : Registry :=
  match kind with
  | .setting => r
  | .permission => r
  | .group => r.modifyGroup id fun g => { g with permissions := g.permissions ++ x.permissions }
  | .role => r.modifyRole id fun o => { o with
      permissions := o.permissions ++ x.permissions
      assignments := o.assignments ++ x.assignments }
  | .account => r.modifyAccount id fun a => { a with
      roles := a.roles ++ x.roles
      overrides := a.overrides ++ x.overrides }

@[simp] theorem names_enter (r : Registry) (id : String) (e : Entity) :
    (r.enter id e).names = r.names := by cases e <;> rfl

@[simp] theorem names_extend (r : Registry) (kind : Kind) (id : String) (x : Additions) :
    (r.extend kind id x).names = r.names := by cases kind <;> rfl

/-- The entity that is entered comes last among its kind, and no other kind changes. -/
theorem registrations_enter (r : Registry) (id : String) (e : Entity) (kind : Kind) :
    (r.enter id e).registrations kind = r.registrations kind ++ kind.among [(id, e)] := by
  -- Only the store of the entity's own kind is concerned.
  cases e with
  | setting e =>
    cases kind with
    | setting => exact Store.registrations_push r.settings _ id e
    | _ => exact (List.append_nil _).symm
  | permission e =>
    cases kind with
    | permission => exact Store.registrations_push r.permissions _ id e
    | _ => exact (List.append_nil _).symm
  | group e =>
    cases kind with
    | group => exact Store.registrations_push r.groups _ id e
    | _ => exact (List.append_nil _).symm
  | role e =>
    cases kind with
    | role => exact Store.registrations_push r.roles _ id e
    | _ => exact (List.append_nil _).symm
  | account e =>
    cases kind with
    | account => exact Store.registrations_push r.accounts _ id e
    | _ => exact (List.append_nil _).symm

/-- Additions go to the entity of that kind and identifier; everything stays in its place. -/
theorem registrations_extend (r : Registry) (kind : Kind) (id : String) (x : Additions)
    (k : Kind) :
    (r.extend kind id x).registrations k = (r.registrations k).map fun y =>
      (y.1, if k = kind ∧ y.1 = id then y.2.extend x else y.2) := by
  by_cases hkind : k = kind
  · subst hkind
    simp only [true_and]
    cases k with
    -- Settings and permissions have no lists to add to.
    | setting =>
      exact (Store.map_registrations_self r.settings .setting
        (fun y => (y.1, if y.1 = id then y.2.extend x else y.2))
        fun _ _ => Prod.ext rfl (ite_self _)).symm
    | permission =>
      exact (Store.map_registrations_self r.permissions .permission
        (fun y => (y.1, if y.1 = id then y.2.extend x else y.2))
        fun _ _ => Prod.ext rfl (ite_self _)).symm
    | group => exact Store.registrations_modify r.groups id fun e => by cases e <;> rfl
    | role => exact Store.registrations_modify r.roles id fun e => by cases e <;> rfl
    | account => exact Store.registrations_modify r.accounts id fun e => by cases e <;> rfl
  · simp only [hkind, false_and, ↓reduceIte, List.map_id']
    cases kind with
    | setting => rfl
    | permission => rfl
    | group =>
      cases k with
      | group => exact absurd rfl hkind
      | _ => rfl
    | role =>
      cases k with
      | role => exact absurd rfl hkind
      | _ => rfl
    | account =>
      cases k with
      | account => exact absurd rfl hkind
      | _ => rfl

/-- The names and the registrations make up a registry. -/
theorem ext_registrations (hnames : r.names = t.names)
    (h : ∀ kind, r.registrations kind = t.registrations kind) : r = t := by
  obtain ⟨names, settings, permissions, groups, roles, accounts⟩ := r
  obtain ⟨names', settings', permissions', groups', roles', accounts'⟩ := t
  -- Each store is the list of its registrations, which tell its members apart.
  obtain rfl : names = names' := hnames
  obtain rfl : settings = settings' :=
    Store.ext_registrations (fun _ _ => Entity.setting.inj) (h .setting)
  obtain rfl : permissions = permissions' :=
    Store.ext_registrations (fun _ _ => Entity.permission.inj) (h .permission)
  obtain rfl : groups = groups' := Store.ext_registrations (fun _ _ => Entity.group.inj) (h .group)
  obtain rfl : roles = roles' := Store.ext_registrations (fun _ _ => Entity.role.inj) (h .role)
  obtain rfl : accounts = accounts' :=
    Store.ext_registrations (fun _ _ => Entity.account.inj) (h .account)
  rfl

@[simp] theorem extend_empty (r : Registry) (kind : Kind) (id : String) :
    r.extend kind id ∅ = r := by
  refine ext_registrations (names_extend r kind id ∅) fun k => ?_
  rw [registrations_extend]
  refine (List.map_congr_left fun y _ => ?_).trans (List.map_id _)
  simp

/-- Additions one after another are additions at once. -/
theorem extend_extend (r : Registry) (kind : Kind) (id : String) (x y : Additions) :
    (r.extend kind id x).extend kind id y = r.extend kind id (x ++ y) := by
  refine ext_registrations (by simp only [names_extend]) fun k => ?_
  simp only [registrations_extend, List.map_map]
  refine List.map_congr_left fun z _ => ?_
  by_cases hz : k = kind ∧ z.1 = id
  · simp [hz, Entity.extend_append]
  · simp [hz]

/-- Additions change no identifier. -/
@[simp] theorem keys_extend (r : Registry) (kind : Kind) (id : String) (x : Additions) (k : Kind) :
    (r.extend kind id x).keys k = r.keys k := by
  rw [keys, keys, registrations_extend, List.map_map]
  exact List.map_congr_left fun _ _ => rfl

/-- The look-up of an entity after additions to the lists of one. -/
theorem entity_extend (r : Registry) (kind : Kind) (id : String) (x : Additions) (k : Kind)
    (i : Identifier) :
    (r.extend kind id x).entity k i
      = (r.entity k i).map fun e => if k = kind ∧ i.text = id then e.extend x else e := by
  rw [entity_eq, entity_eq, registrations_extend,
    lookup_map_snd fun key (e : Entity) => if k = kind ∧ key = id then e.extend x else e]
  cases (r.registrations k).lookup i.text <;> rfl

/-- Where identifiers are distinct, one entity gets the additions and all others stay. -/
theorem Distinct.registrations_extend (h : r.Distinct) {kind : Kind} {id : String} {e : Entity}
    {before after : List Registration}
    (hsplit : r.registrations kind = before ++ (id, e) :: after) (x : Additions) :
    (r.extend kind id x).registrations kind = before ++ (id, e.extend x) :: after := by
  have hkeys := h.keys kind
  rw [Registry.keys, hsplit, List.map_append, List.map_cons, List.nodup_append,
    List.nodup_cons] at hkeys
  obtain ⟨-, ⟨hafter, -⟩, hbefore⟩ := hkeys
  -- No other registration of the kind stands under the identifier.
  have hother : ∀ ys : List Registration, (∀ y ∈ ys, y.1 ≠ id) →
      (ys.map fun y => (y.1, if kind = kind ∧ y.1 = id then y.2.extend x else y.2)) = ys := by
    intro ys hys
    refine (List.map_congr_left fun y hy => ?_).trans (List.map_id ys)
    simp [hys y hy]
  have hleft : ∀ y ∈ before, y.1 ≠ id := fun y hy =>
    hbefore y.1 (List.mem_map_of_mem hy) id List.mem_cons_self
  have hright : ∀ y ∈ after, y.1 ≠ id := fun y hy heq =>
    hafter (List.mem_map.mpr ⟨y, hy, heq⟩)
  rw [Registry.registrations_extend, hsplit, List.map_append, List.map_cons, hother before hleft,
    hother after hright]
  simp

/-- What is found under an identifier is registered under it. -/
theorem mem_keys_of_entity {kind : Kind} {id : Identifier} {e : Entity}
    (h : r.entity kind id = .ok e) : id.text ∈ r.keys kind := by
  by_contra hnot
  rw [(entity_eq_error_iff r kind id).mpr hnot] at h
  simp at h

/-- Identifiers of one text lead to the same entity. -/
theorem entity_of_text {kind : Kind} {i j : Identifier} {e : Entity} (hij : i.text = j.text)
    (h : r.entity kind i = .ok e) : r.entity kind j = .ok e := by
  rw [entity_eq, hij] at h
  rw [entity_eq]
  cases hlookup : (r.registrations kind).lookup j.text with
  | none => simp [hlookup] at h
  | some f => simpa [hlookup] using h

/-- What is found among a kind is of that kind. -/
theorem kind_of_entity {kind : Kind} {id : Identifier} {e : Entity}
    (h : r.entity kind id = .ok e) : e.kind = kind := by
  cases kind with
  | setting => obtain ⟨_, -, rfl⟩ := Except.map_eq_ok.mp h; rfl
  | permission => obtain ⟨_, -, rfl⟩ := Except.map_eq_ok.mp h; rfl
  | group => obtain ⟨_, -, rfl⟩ := Except.map_eq_ok.mp h; rfl
  | role => obtain ⟨_, -, rfl⟩ := Except.map_eq_ok.mp h; rfl
  | account => obtain ⟨_, -, rfl⟩ := Except.map_eq_ok.mp h; rfl

/-! ## Registrations -/

/-- Registers an entity whose identifier and then whose name, if entities of its kind are found by
it, have to be free. -/
def register (r : Registry) (id : Identifier) (e : Entity) : Except Error Registry :=
  if id.text ∈ r.keys e.kind then .error (.duplicateId e.kind id)
  else if e.kind ∈ Kind.named ∧ e.name? ∈ (r.ofKind e.kind).map Entity.name? then
    .error (.duplicateName e.kind (e.name?.getD ""))
  else .ok (r.enter id.text e)

/-- Something is registered just if its identifier is free among its kind and, for the kinds that
are told apart by names, so is its name. -/
theorem register_eq_ok {id : Identifier} {e : Entity} :
    r.register id e = .ok t ↔
      id.text ∉ r.keys e.kind ∧
        (e.kind ∈ Kind.named → ∀ f ∈ r.ofKind e.kind, f.name? ≠ e.name?) ∧
        t = r.enter id.text e := by
  have htaken : e.kind ∈ Kind.named ∧ e.name? ∈ (r.ofKind e.kind).map Entity.name? ↔
      ¬ (e.kind ∈ Kind.named → ∀ f ∈ r.ofKind e.kind, f.name? ≠ e.name?) := by
    simp [List.mem_map]
  simp only [register, htaken]
  -- The identifier is looked at first, and the name only if that is free.
  by_cases hid : id.text ∈ r.keys e.kind
  · simp [hid]
  · by_cases hfresh : e.kind ∈ Kind.named → ∀ f ∈ r.ofKind e.kind, f.name? ≠ e.name?
    · rw [if_neg hid, if_neg (not_not_intro hfresh), Except.ok.injEq, eq_comm]
      exact ⟨fun ht => ⟨hid, hfresh, ht⟩, fun h => h.2.2⟩
    · rw [if_neg hid, if_pos hfresh]
      simp [hfresh]

/-- What is refused has a taken identifier, or a free one and a taken name. -/
theorem register_eq_error {id : Identifier} {e : Entity} {err : Error} :
    r.register id e = .error err ↔
      (id.text ∈ r.keys e.kind ∧ err = .duplicateId e.kind id) ∨
        (id.text ∉ r.keys e.kind ∧ e.kind ∈ Kind.named ∧
          (∃ f ∈ r.ofKind e.kind, f.name? = e.name?) ∧
          err = .duplicateName e.kind (e.name?.getD "")) := by
  simp only [register, List.mem_map]
  -- The identifier is looked at first, and the name only if that is free.
  by_cases hid : id.text ∈ r.keys e.kind
  · simp [hid, eq_comm]
  · by_cases hname : e.kind ∈ Kind.named ∧ ∃ f ∈ r.ofKind e.kind, f.name? = e.name?
    · rw [if_neg hid, if_pos hname, Except.error.injEq, eq_comm]
      exact ⟨fun h => .inr ⟨hid, hname.1, hname.2, h⟩,
        fun h => h.elim (fun h => absurd h.1 hid) fun h => h.2.2.2⟩
    · rw [if_neg hid, if_neg hname]
      simp only [reduceCtorEq, hid, false_and, false_or, false_iff]
      exact fun h => hname ⟨h.2.1, h.2.2.1⟩

/-- Registering an entity is registering it in the store of its kind, for a kind without names. -/
theorem register_eq {α : Type} {s : Store α} (wrap : α → Entity) {put : Store α → Registry}
    (id : Identifier) (a : α) (hnamed : (wrap a).kind ∉ Kind.named)
    (hkeys : r.keys (wrap a).kind = s.keys)
    (henter : r.enter id.text (wrap a) = put (s.push id.text a)) :
    r.register id (wrap a) = (s.register (wrap a).kind id a).map put := by
  simp only [register, Store.register_eq, hkeys, hnamed, false_and, ↓reduceIte, henter]
  split <;> rfl

/-- Registering an entity is registering it in the store of its kind, for a kind with names. -/
theorem registerNamed_eq {α : Type} {s : Store α} (wrap : α → Entity) {put : Store α → Registry}
    {name : α → String} (id : Identifier) (a : α) (hnamed : (wrap a).kind ∈ Kind.named)
    (hname : ∀ b, (wrap b).name? = some (name b)) (hkeys : r.keys (wrap a).kind = s.keys)
    (hofKind : r.ofKind (wrap a).kind = s.toList.map wrap)
    (henter : r.enter id.text (wrap a) = put (s.push id.text a)) :
    r.register id (wrap a) = (s.registerNamed (wrap a).kind name id a).map put := by
  -- The names of the entities of the kind are those of the members of the store.
  have htaken : some (name a) ∈ (s.toList.map wrap).map Entity.name?
      ↔ name a ∈ s.toList.map name := by
    simp [hname]
  simp only [register, Store.registerNamed_eq, hkeys, hofKind, hname, htaken, hnamed, true_and,
    henter, Option.getD_some]
  split
  · rfl
  · split <;> rfl

/-! The registry keeps each kind in a store of its own. -/

/-- Registering a setting is adding it. -/
theorem register_setting (r : Registry) (id : Identifier) (e : Entry Setting) :
    r.register id (.setting e) = r.addSetting id e :=
  register_eq .setting id e (by simp [Entity.kind, Kind.named])
    (Store.map_fst_registrations _ _) rfl

theorem register_permission (r : Registry) (id : Identifier) (e : Entry Permission) :
    r.register id (.permission e) = r.addPermission id e :=
  registerNamed_eq .permission id e (by simp [Entity.kind, Kind.named]) (fun _ => rfl)
    (Store.map_fst_registrations _ _) rfl rfl

theorem register_group (r : Registry) (id : Identifier) (e : Entry Group) :
    r.register id (.group e) = r.addGroup id e :=
  registerNamed_eq .group id e (by simp [Entity.kind, Kind.named]) (fun _ => rfl)
    (Store.map_fst_registrations _ _) rfl rfl

theorem register_role (r : Registry) (id : Identifier) (e : Entry Role) :
    r.register id (.role e) = r.addRole id e :=
  registerNamed_eq .role id e (by simp [Entity.kind, Kind.named]) (fun _ => rfl)
    (Store.map_fst_registrations _ _) rfl rfl

theorem register_account (r : Registry) (id : Identifier) (e : Entry Account) :
    r.register id (.account e) = r.addAccount id e :=
  register_eq .account id e (by simp [Entity.kind, Kind.named])
    (Store.map_fst_registrations _ _) rfl

end Registry

/-! ## Commands -/

/-- What a definition describes, unless its own parts are at fault. -/
def Definition.described : Definition → Except Error (Identifier × Entity)
  | .setting key value => do
    let key ← Registry.nonEmptyIdentifier key .settingKey
    match value.text? with
    | some value => .ok (key, .setting (.configured ⟨key, value⟩))
    | none => .error .settingValue
  | .permission id config => do
    let c ← (PermissionConfig.parse config).orInvalid "permission"
    return (id, .permission (.configured ⟨id, c⟩))
  | .group id config => do
    let c ← (GroupConfig.parse config).orInvalid "permission group"
    return (id, .group (.configured ⟨id, c, []⟩))
  | .role id config => do
    let c ← (RoleConfig.parse config).orInvalid "role"
    return (id, .role (.configured ⟨id, c, [], []⟩))
  | .account id config => do
    -- The identifier of an account is checked before its configuration.
    let id ← Registry.nonEmptyIdentifier id .accountId
    let c ← (AccountConfig.parse (Registry.accountConfig config)).orInvalid "account"
    return (id, .account (.configured ⟨id, c, [], []⟩))

/-- What a definition describes is a new entity of its kind, under the identifier that it is given.
-/
theorem Definition.of_described {d : Definition} {id : Identifier} {e : Entity}
    (h : d.described = .ok (id, e)) :
    d.id? = some id ∧ e.kind = d.kind ∧ e.isScripted = false ∧ e.identifier = id := by
  cases d with
  | setting key value =>
    obtain ⟨key, hkey, h⟩ := Except.bind_eq_ok.mp h
    -- Settings are the only ones whose value can be refused after the identifier.
    split at h
    · obtain ⟨rfl, rfl⟩ := Prod.mk.inj (Except.ok.inj h)
      exact ⟨Registry.nonEmptyIdentifier_eq_ok hkey, rfl, rfl, rfl⟩
    · simp at h
  | permission i config =>
    obtain ⟨c, -, h⟩ := Except.bind_eq_ok.mp h
    obtain ⟨rfl, rfl⟩ := Prod.mk.inj (Except.ok.inj h)
    exact ⟨rfl, rfl, rfl, rfl⟩
  | group i config =>
    obtain ⟨c, -, h⟩ := Except.bind_eq_ok.mp h
    obtain ⟨rfl, rfl⟩ := Prod.mk.inj (Except.ok.inj h)
    exact ⟨rfl, rfl, rfl, rfl⟩
  | role i config =>
    obtain ⟨c, -, h⟩ := Except.bind_eq_ok.mp h
    obtain ⟨rfl, rfl⟩ := Prod.mk.inj (Except.ok.inj h)
    exact ⟨rfl, rfl, rfl, rfl⟩
  | account v config =>
    obtain ⟨i, hi, h⟩ := Except.bind_eq_ok.mp h
    obtain ⟨c, -, h⟩ := Except.bind_eq_ok.mp h
    obtain ⟨rfl, rfl⟩ := Prod.mk.inj (Except.ok.inj h)
    exact ⟨Registry.nonEmptyIdentifier_eq_ok hi, rfl, rfl, rfl⟩

/-- The kind and the identifier of the entity that a link is added to. -/
def Link.owner : Link → Kind × String
  | .groupPermission id _ => (.group, id)
  | .rolePermission id _ => (.role, id)
  | .roleGroup id _ _ => (.role, id)
  | .accountRole id _ => (.account, id)
  | .override id _ _ _ => (.account, id)

/-- What a link adds to the lists of its owner, unless its own parts are at fault. -/
def Link.additions : Link → Except Error Additions
  | .groupPermission _ permission => .ok { permissions := [permission] }
  | .rolePermission _ permission => .ok { permissions := [permission] }
  | .roleGroup _ group terms =>
    (Registry.assignment group terms).map fun a => { assignments := [a] }
  | .accountRole _ role => .ok { roles := [role] }
  | .override _ isGrant permission terms =>
    (Registry.overrideOf isGrant permission terms).map fun o => { overrides := [o] }

namespace Registry

/-- A definition is checked for itself first; what it describes is registered then. -/
theorem define_eq (r : Registry) (d : Definition) :
    r.define d = d.described >>= fun x => r.register x.1 x.2 := by
  -- After what is described, adding is registering, kind by kind.
  cases d with
  | setting key value =>
    simp only [Definition.described, define, bind_assoc]
    refine bind_congr fun key => ?_
    cases value.text? with
    | none => rfl
    | some value => exact (r.register_setting key _).symm
  | permission id config =>
    simp only [Definition.described, define, bind_assoc, pure_bind]
    exact bind_congr fun c => (r.register_permission id _).symm
  | group id config =>
    simp only [Definition.described, define, bind_assoc, pure_bind]
    exact bind_congr fun c => (r.register_group id _).symm
  | role id config =>
    simp only [Definition.described, define, bind_assoc, pure_bind]
    exact bind_congr fun c => (r.register_role id _).symm
  | account v config =>
    simp only [Definition.described, define, bind_assoc, pure_bind]
    exact bind_congr fun id => bind_congr fun c => (r.register_account id _).symm

/-- A script is registered as it is. -/
theorem script_eq (r : Registry) (kind : Kind) (id : Identifier) (s : Scripted) :
    r.script kind id s = r.register id (.ofScript kind s) := by
  cases kind with
  | setting => exact (r.register_setting id _).symm
  | permission => exact (r.register_permission id _).symm
  | group => exact (r.register_group id _).symm
  | role => exact (r.register_role id _).symm
  | account => exact (r.register_account id _).symm

/-- What follows a look-up without regard to what it found. -/
private theorem find_bind {α β : Type} (s : Store α) (kind : Kind) (id : String)
    (x : Except Error β) :
    (find s kind id >>= fun _ => x) = if id ∈ s.keys then x else .error (.notFound kind id) := by
  have hkeys : id ∈ s.keys ↔ (s.get? id).isSome = true := (s.contains_iff_mem_keys id).symm
  have hid : (id : Identifier).text = id := rfl
  simp only [find, hkeys, hid]
  cases s.get? id <;> rfl

/-- A link needs an owner that is registered, and is checked for itself then. -/
theorem link_eq (r : Registry) (l : Link) :
    r.link l
      = if l.owner.2 ∈ r.keys l.owner.1 then l.additions.map (r.extend l.owner.1 l.owner.2)
        else .error (.notFound l.owner.1 l.owner.2) := by
  -- Only these three kinds own anything.
  have hkeys : r.keys .group = r.groups.keys ∧ r.keys .role = r.roles.keys
      ∧ r.keys .account = r.accounts.keys :=
    ⟨Store.map_fst_registrations _ _, Store.map_fst_registrations _ _,
      Store.map_fst_registrations _ _⟩
  obtain ⟨hgroups, hroles, haccounts⟩ := hkeys
  cases l with
  | groupPermission id v =>
    simp only [Link.owner, Link.additions, hgroups]
    exact find_bind r.groups .group id _
  | rolePermission id v =>
    simp only [Link.owner, Link.additions, hroles, Except.map, extend, List.append_nil]
    exact find_bind r.roles .role id _
  | roleGroup id v terms =>
    simp only [Link.owner, Link.additions, hroles]
    -- The owner is found before the terms are read, in both.
    refine (find_bind r.roles .role id _).trans ?_
    cases assignment v terms with
    | error e => rfl
    | ok a => simp only [Except.map, extend, List.append_nil]; rfl
  | accountRole id v =>
    simp only [Link.owner, Link.additions, haccounts, Except.map, extend, List.append_nil]
    exact find_bind r.accounts .account id _
  | override id isGrant v terms =>
    simp only [Link.owner, Link.additions, haccounts]
    -- The owner is found before the terms are read, in both.
    refine (find_bind r.accounts .account id _).trans ?_
    cases overrideOf isGrant v terms with
    | error e => rfl
    | ok o => simp only [Except.map, extend, List.append_nil]; rfl

/-! ## Attempts -/

variable {r t : Registry}

/-- No command changes the schema names. -/
theorem names_apply {c : Command} (h : r.apply c = .ok t) : t.names = r.names := by
  cases c with
  | define d =>
    rw [apply, define_eq] at h
    obtain ⟨x, -, h⟩ := Except.bind_eq_ok.mp h
    obtain ⟨-, -, rfl⟩ := register_eq_ok.mp h
    exact names_enter r _ _
  | script kind id s =>
    rw [apply, script_eq] at h
    obtain ⟨-, -, rfl⟩ := register_eq_ok.mp h
    exact names_enter r _ _
  | link l =>
    rw [apply, link_eq] at h
    split at h
    · obtain ⟨x, -, rfl⟩ := Except.map_eq_ok.mp h
      exact names_extend r _ _ x
    · simp at h

/-- A command only adds, to the registrations or to the lists of an entity. -/
theorem grows_apply {c : Command} (h : r.apply c = .ok t) : ∃ new, r.Grows new t := by
  cases c with
  | define d =>
    obtain ⟨_, _, -, -, -, hadds⟩ := adds_of_define h
    exact ⟨_, .add .refl hadds⟩
  | script kind id s => exact ⟨_, .add .refl (adds_of_script h)⟩
  | link l => exact ⟨_, .rewire .refl (rewires_of_link h)⟩

/-- The registry after a command, which changes nothing if it fails. -/
def attempt (r : Registry) (c : Command) : Registry := (r.apply c).toOption.getD r

/-- The registry after commands of which any may fail. -/
def attempts (r : Registry) (cs : List Command) : Registry := cs.foldl attempt r

/-- Which of several commands succeed, each in the registry that those before it leave. -/
def successes (r : Registry) : List Command → List Bool
  | [] => []
  | c :: cs => (r.apply c).isOk :: (r.attempt c).successes cs

/-- Attempts go on from what the first one leaves. -/
@[simp] theorem attempts_cons (r : Registry) (c : Command) (cs : List Command) :
    r.attempts (c :: cs) = (r.attempt c).attempts cs := rfl

/-- An attempt that succeeds has the effect of the command. -/
theorem attempt_of_ok {c : Command} (h : r.apply c = .ok t) : r.attempt c = t := by
  rw [attempt, h]
  rfl

/-- An attempt that fails has no effect. -/
theorem attempt_of_error {c : Command} {e : Error} (h : r.apply c = .error e) :
    r.attempt c = r := by
  rw [attempt, h]
  rfl

@[simp] theorem names_attempts (r : Registry) (cs : List Command) :
    (r.attempts cs).names = r.names := by
  induction cs generalizing r with
  | nil => rfl
  | cons c cs ih =>
    rw [attempts_cons, ih]
    cases hc : r.apply c with
    | ok t => rw [attempt_of_ok hc, names_apply hc]
    | error e => rw [attempt_of_error hc]

/-- Whatever is attempted, the registry grows. -/
theorem grows_attempts (r : Registry) (cs : List Command) : ∃ new, r.Grows new (r.attempts cs) := by
  -- An attempt that fails leaves the registry, so only those that succeed add to it.
  induction cs generalizing r with
  | nil => exact ⟨[], .refl⟩
  | cons c cs ih =>
    rw [attempts_cons]
    cases hc : r.apply c with
    | ok t =>
      obtain ⟨new, hnew⟩ := grows_apply hc
      obtain ⟨more, hmore⟩ := ih t
      rw [attempt_of_ok hc]
      exact ⟨new ++ more, hnew.trans hmore⟩
    | error e =>
      rw [attempt_of_error hc]
      exact ih r

end Registry

end AccessGraph
