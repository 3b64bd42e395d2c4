import AccessGraph.Proofs.Registry.Effects

/-!
# Renamed identifiers

A `Renaming` gives new identifiers to permissions, groups and roles.  `Renaming.Replays` says that a
command does the same as another under new identifiers, both where it registers and where it refers;
the terms on which groups are attached to roles may be any others that are accepted as well.

The registries that two such runs lead to are related by `Renaming.Relates`: entity by entity they
differ in identifiers only, and the same commands succeed (`Renaming.Relates.attempts`).
-/

namespace AccessGraph

/-! ## Results that agree -/

/-- Two results that are both failures or both successes, and related either way. -/
inductive Except.Agree {ε δ α β : Type} (E : ε → δ → Prop) (R : α → β → Prop) :
    Except ε α → Except δ β → Prop
  | error {e : ε} {d : δ} : E e d → Agree E R (.error e) (.error d)
  | ok {a : α} {b : β} : R a b → Agree E R (.ok a) (.ok b)

namespace Except.Agree

variable {ε δ α β α' β' : Type} {E : ε → δ → Prop} {R : α → β → Prop} {S : α' → β' → Prop}
  {x : Except ε α} {y : Except δ β}

/-- Two steps agree if the first ones do, and the second ones after related values. -/
private theorem bind (h : Agree E R x y) {f : α → Except ε α'} {g : β → Except δ β'}
    (hfg : ∀ a b, R a b → Agree E S (f a) (g b)) : Agree E S (x >>= f) (y >>= g) := by
  cases h with
  | error he => exact .error he
  | ok hab => exact hfg _ _ hab

/-- What is made alike of related values agrees. -/
theorem map (h : Agree E R x y) {f : α → α'} {g : β → β'}
    (hfg : ∀ a b, R a b → S (f a) (g b)) : Agree E S (x.map f) (y.map g) := by
  cases h with
  | error he => exact .error he
  | ok hab => exact .ok (hfg _ _ hab)

/-- Computations that agree both give a value or both fail. -/
private theorem isOk_eq (h : Agree E R x y) : y.isOk = x.isOk := by cases h <;> rfl

end Except.Agree

/-! ## The terms of an assignment -/

/-- The entries that terms add to a configuration. -/
def Terms.entries (tm : Terms) : Entries := tm.fields.map fun (k, v) => (.text k, v)

/-- Terms on which a group can be attached to a role. -/
def Terms.Accepted (tm : Terms) : Prop := ∃ group a, Registry.assignment group tm = .ok a

/-- What is found beside an entry of another name. -/
private theorem Value.find?_cons_of_ne {k name : String} (hne : k ≠ name) (v : Value)
    (es : Entries) :
    Value.find? ((.text k, v) :: es) name = Value.find? es name := by
  simp [Value.find?, Value.text?, hne]

/-- The group of an assignment and its terms are accepted apart from each other. -/
private theorem Registry.assignment_eq_ok {group : Value} {tm : Terms} {a : Assignment} :
    assignment group tm = .ok a ↔ Field.text group = .ok a.groupId ∧
      ValidityWindow.ends tm.entries = .ok a.window ∧ metadataField tm.entries = .ok a.metadata ∧
      a.window.fault? = none := by
  have hread : assignment group tm
      = (Assignment.read ((.text "group_id", group) :: tm.entries)).orInvalid
        "role permission group assignment" := rfl
  -- The identifier of the group comes first and hides nothing that the terms say.
  have hother : ∀ name, name ≠ "group_id" →
      Value.find? ((.text "group_id", group) :: tm.entries) name
        = Value.find? tm.entries name := fun name hname =>
    Value.find?_cons_of_ne (Ne.symm hname) group tm.entries
  have hends : ValidityWindow.ends ((.text "group_id", group) :: tm.entries)
      = ValidityWindow.ends tm.entries := by
    simp only [ValidityWindow.ends, Field.optional, hother "valid_from" (by decide),
      hother "valid_until" (by decide)]
  have hmetadata : metadataField ((.text "group_id", group) :: tm.entries)
      = metadataField tm.entries := by
    simp only [metadataField, Field.optional, hother "metadata" (by decide)]
  have hgroup : Value.find? ((.text "group_id", group) :: tm.entries) "group_id"
      = some group := by
    simp [Value.find?, Value.text?]
  rw [hread, Checked.orInvalid_eq_ok, Assignment.read_eq_ok, hends, hmetadata,
    Field.required_eq_ok, hgroup]
  simp only [Option.some.injEq, exists_eq_left', and_left_comm]

/-- Terms are accepted if their ends and metadata are read and the window has no fault. -/
private theorem Terms.accepted_iff {tm : Terms} :
    tm.Accepted ↔ ∃ window metadata, ValidityWindow.ends tm.entries = .ok window ∧
      metadataField tm.entries = .ok metadata ∧ window.fault? = Option.none := by
  simp only [Accepted, Registry.assignment_eq_ok]
  constructor
  · intro h
    obtain ⟨_, a, -, hrest⟩ := h
    exact ⟨a.window, a.metadata, hrest⟩
  · intro h
    obtain ⟨window, metadata, hrest⟩ := h
    exact ⟨.text "", ⟨window, "", metadata⟩, rfl, hrest⟩

/-! ## Renamings -/

/-- New identifiers for permissions, groups and roles, each kind for itself. -/
structure Renaming where
  permission : String → String
  group : String → String
  role : String → String
  permission_injective : Function.Injective permission
  group_injective : Function.Injective group
  role_injective : Function.Injective role

namespace Renaming

variable (ρ : Renaming)

/-- The new identifier of an entity of a kind.  Settings and accounts keep theirs. -/
def of : Kind → String → String
  | .setting => id
  | .permission => ρ.permission
  | .group => ρ.group
  | .role => ρ.role
  | .account => id

/-- A renaming makes no two identifiers of a kind one. -/
theorem of_injective (kind : Kind) : Function.Injective (ρ.of kind) := by
  cases kind with
  | setting => exact Function.injective_id
  | permission => exact ρ.permission_injective
  | group => exact ρ.group_injective
  | role => exact ρ.role_injective
  | account => exact Function.injective_id

/-- The second value refers to an entity of a kind by its new identifier, where the first does so by
the old one.  A value that is no identifier stays as it is. -/
structure Captures (kind : Kind) (v w : Value) : Prop where
  text : w.text? = v.text?.map (ρ.of kind)
  other : v.text? = none → w = v

/-- The second value names a group to be attached by its new identifier, where the first does so by
the old one.  A value that names none stays as it is. -/
structure Attaches (v w : Value) : Prop where
  text : ∀ s, Field.text v = .ok s → Field.text w = .ok (ρ.group s)
  other : (∀ s, Field.text v ≠ .ok s) → w = v

/-- The second definition is the first with a new identifier. -/
inductive Defines : Definition → Definition → Prop
  | setting (key value : Value) : Defines (.setting key value) (.setting key value)
  | permission {id id' : Identifier} (config : Value) : id'.text = ρ.permission id.text →
    Defines (.permission id config) (.permission id' config)
  | group {id id' : Identifier} (config : Value) : id'.text = ρ.group id.text →
    Defines (.group id config) (.group id' config)
  | role {id id' : Identifier} (config : Value) : id'.text = ρ.role id.text →
    Defines (.role id config) (.role id' config)
  | account (id config : Value) : Defines (.account id config) (.account id config)

/-- The second link is the first with new identifiers, and with other terms if it attaches a group:
they are accepted just when the first ones are. -/
inductive Links : Link → Link → Prop
  | groupPermission (id : String) {v w : Value} : ρ.Captures .permission v w →
    Links (.groupPermission id v) (.groupPermission (ρ.group id) w)
  | rolePermission (id : String) {v w : Value} : ρ.Captures .permission v w →
    Links (.rolePermission id v) (.rolePermission (ρ.role id) w)
  | roleGroup (id : String) {v w : Value} {tm tm' : Terms} : ρ.Attaches v w →
    (tm.Accepted ↔ tm'.Accepted) →
    Links (.roleGroup id v tm) (.roleGroup (ρ.role id) w tm')
  | accountRole (id : String) {v w : Value} : ρ.Captures .role v w →
    Links (.accountRole id v) (.accountRole id w)
  | override (id : String) (isGrant : Bool) (permission : Value) (tm : Terms) :
    Links (.override id isGrant permission tm) (.override id isGrant permission tm)

/-- The second command does the same as the first under new identifiers. -/
inductive Replays : Command → Command → Prop
  | define {d d' : Definition} : ρ.Defines d d' → Replays (.define d) (.define d')
  | link {l l' : Link} : ρ.Links l l' → Replays (.link l) (.link l')

/-- The second entity is the first under a new identifier and with new identifiers in its
references. -/
inductive Renames : Entity → Entity → Prop
  | setting (s : Setting) : Renames (.setting (.configured s)) (.setting (.configured s))
  | permission {id id' : Identifier} (c : PermissionConfig) : id'.text = ρ.permission id.text →
    Renames (.permission (.configured ⟨id, c⟩)) (.permission (.configured ⟨id', c⟩))
  | group {id id' : Identifier} (c : GroupConfig) {ps qs : List Value} :
    id'.text = ρ.group id.text → ps.Forall₂ (ρ.Captures .permission) qs →
    Renames (.group (.configured ⟨id, c, ps⟩)) (.group (.configured ⟨id', c, qs⟩))
  | role {id id' : Identifier} (c : RoleConfig) {ps qs : List Value} {as bs : List Assignment} :
    id'.text = ρ.role id.text → ps.Forall₂ (ρ.Captures .permission) qs →
    as.Forall₂ (fun a b => b.groupId = ρ.group a.groupId) bs →
    Renames (.role (.configured ⟨id, c, ps, as⟩)) (.role (.configured ⟨id', c, qs, bs⟩))
  | account (id : Identifier) (c : AccountConfig) {rs ss : List Value} (os : List Override) :
    rs.Forall₂ (ρ.Captures .role) ss →
    Renames (.account (.configured ⟨id, c, rs, os⟩)) (.account (.configured ⟨id, c, ss, os⟩))

/-- The second additions are the first with new identifiers. -/
structure Extends (x y : Additions) : Prop where
  permissions : x.permissions.Forall₂ (ρ.Captures .permission) y.permissions
  assignments : x.assignments.Forall₂ (fun a b => b.groupId = ρ.group a.groupId) y.assignments
  roles : x.roles.Forall₂ (ρ.Captures .role) y.roles
  overrides : y.overrides = x.overrides

/-- The second registration is the first under a new identifier of its kind. -/
def Registers (kind : Kind) (x y : Registration) : Prop :=
  y.1 = ρ.of kind x.1 ∧ ρ.Renames x.2 y.2

/-- The second registry is the first with new identifiers. -/
structure Relates (r t : Registry) : Prop where
  names : t.names = r.names
  registrations : ∀ kind, (r.registrations kind).Forall₂ (ρ.Registers kind) (t.registrations kind)

variable {ρ}

namespace Renames

variable {e f : Entity}

theorem kind_eq (h : ρ.Renames e f) : f.kind = e.kind := by cases h <;> rfl

theorem name?_eq (h : ρ.Renames e f) : f.name? = e.name? := by cases h <;> rfl

/-- Renamed additions to a renamed entity. -/
theorem extend (h : ρ.Renames e f) {x y : Additions} (hxy : ρ.Extends x y) :
    ρ.Renames (e.extend x) (f.extend y) := by
  cases h with
  | setting s => exact .setting s
  | permission c hid => exact .permission c hid
  | group c hid hps => exact .group c hid (List.rel_append hps hxy.permissions)
  | role c hid hps has =>
    exact .role c hid (List.rel_append hps hxy.permissions)
      (List.rel_append has hxy.assignments)
  -- Overrides name permissions by their names, so they stay.
  | account id c os hrs =>
    show ρ.Renames _ (.account (.configured ⟨_, _, _, os ++ y.overrides⟩))
    rw [hxy.overrides]
    exact .account id c _ (List.rel_append hrs hxy.roles)

end Renames

/-! ## One command -/

/-- Two results of commands that agree, whatever their errors are. -/
abbrev Matches {α β : Type} (R : α → β → Prop) : Except Error α → Except Error β → Prop :=
  Except.Agree (fun _ _ => True) R

theorem Matches.refl {α : Type} {R : α → α → Prop} {x : Except Error α}
    (h : ∀ a, x = .ok a → R a a) : Matches R x x := by
  cases x with
  | error e => exact .error trivial
  | ok a => exact .ok (h a rfl)

/-- What definitions describe under an old and a new identifier. -/
def Describes (ρ : Renaming) (x y : Identifier × Entity) : Prop :=
  y.1.text = ρ.of x.2.kind x.1.text ∧ ρ.Renames x.2 y.2

/-- A renamed definition describes the renamed entity, or is refused alike. -/
theorem Defines.described {d d' : Definition} (h : ρ.Defines d d') :
    Matches ρ.Describes d.described d'.described := by
  -- Configurations are checked the same way; what they make up differs by the identifier.
  cases h with
  | setting key value =>
    refine Matches.refl fun x hx => ?_
    obtain ⟨i, -, hx⟩ := Except.bind_eq_ok.mp hx
    split at hx
    · obtain rfl := Except.ok.inj hx
      exact ⟨rfl, .setting _⟩
    · simp at hx
  | permission config hid =>
    exact (Matches.refl (R := Eq) fun _ _ => rfl).bind fun c _ hc =>
      hc ▸ .ok ⟨hid, .permission c hid⟩
  | group config hid =>
    exact (Matches.refl (R := Eq) fun _ _ => rfl).bind fun c _ hc =>
      hc ▸ .ok ⟨hid, .group c hid .nil⟩
  | role config hid =>
    exact (Matches.refl (R := Eq) fun _ _ => rfl).bind fun c _ hc =>
      hc ▸ .ok ⟨hid, .role c hid .nil .nil⟩
  | account id config =>
    refine Matches.refl fun x hx => ?_
    obtain ⟨i, -, hx⟩ := Except.bind_eq_ok.mp hx
    obtain ⟨c, -, hx⟩ := Except.bind_eq_ok.mp hx
    obtain rfl := Except.ok.inj hx
    exact ⟨rfl, .account _ c [] .nil⟩

/-- A renamed attachment assigns the renamed group, or is refused alike. -/
theorem Attaches.additions {v w : Value} {tm tm' : Terms} (h : ρ.Attaches v w)
    (hterms : tm.Accepted ↔ tm'.Accepted) :
    Matches (fun a b : Assignment => b.groupId = ρ.group a.groupId)
      (Registry.assignment v tm) (Registry.assignment w tm') := by
  cases ha : Registry.assignment v tm with
  | ok a =>
    obtain ⟨hgroup, -⟩ := Registry.assignment_eq_ok.mp ha
    obtain ⟨window, metadata, hrest⟩ := Terms.accepted_iff.mp (hterms.mp ⟨v, a, ha⟩)
    have hb : Registry.assignment w tm' = .ok ⟨window, ρ.group a.groupId, metadata⟩ :=
      Registry.assignment_eq_ok.mpr ⟨h.text _ hgroup, hrest⟩
    rw [hb]
    exact .ok rfl
  | error e =>
    cases hb : Registry.assignment w tm' with
    | error e' => exact .error trivial
    | ok b =>
      -- The terms are accepted, so that the first value names no group; nor then does the second.
      obtain ⟨window, metadata, hrest⟩ := Terms.accepted_iff.mp (hterms.mpr ⟨w, b, hb⟩)
      have hnone : ∀ s, Field.text v ≠ .ok s := by
        intro s hs
        have hok : Registry.assignment v tm = .ok ⟨window, s, metadata⟩ :=
          Registry.assignment_eq_ok.mpr ⟨hs, hrest⟩
        rw [ha] at hok
        simp at hok
      obtain rfl := h.other hnone
      exact absurd (Registry.assignment_eq_ok.mp hb).1 (hnone _)

/-- A renamed link is of the renamed owner. -/
theorem Links.owner {l l' : Link} (h : ρ.Links l l') :
    l'.owner = (l.owner.1, ρ.of l.owner.1 l.owner.2) := by cases h <;> rfl

/-- A renamed link adds the renamed targets, or is refused alike. -/
theorem Links.additions {l l' : Link} (h : ρ.Links l l') :
    Matches ρ.Extends l.additions l'.additions := by
  cases h with
  | groupPermission id hv => exact .ok ⟨.cons hv .nil, .nil, .nil, rfl⟩
  | rolePermission id hv => exact .ok ⟨.cons hv .nil, .nil, .nil, rfl⟩
  -- Terms that are refused are refused alike, and then nothing is added.
  | roleGroup id hv hterms =>
    exact (hv.additions hterms).map fun a b hab => ⟨.nil, .cons hab .nil, .nil, rfl⟩
  | accountRole id hv => exact .ok ⟨.nil, .nil, .cons hv .nil, rfl⟩
  | override id isGrant permission tm =>
    refine Matches.refl fun x hx => ?_
    obtain ⟨o, -, rfl⟩ := Except.map_eq_ok.mp hx
    exact ⟨.nil, .nil, .nil, rfl⟩

namespace Relates

variable {r t : Registry} (h : ρ.Relates r t)

include h

/-- The identifiers of a renamed registry are the new ones, in the order of the old. -/
theorem keys (kind : Kind) : t.keys kind = (r.keys kind).map (ρ.of kind) := by
  rw [Registry.keys, Registry.keys, List.map_map]
  exact map_eq_of_forall₂ (h.registrations kind) fun _ _ hxy => hxy.1

/-- A new identifier is taken just if the old one is. -/
theorem mem_keys_iff {kind : Kind} {id : String} :
    ρ.of kind id ∈ t.keys kind ↔ id ∈ r.keys kind := by
  rw [h.keys, List.mem_map_of_injective (ρ.of_injective kind)]

/-- The entities of a renamed registry stand in the places of the old ones. -/
theorem ofKind (kind : Kind) : (r.ofKind kind).Forall₂ ρ.Renames (t.ofKind kind) := by
  rw [Registry.ofKind_eq, Registry.ofKind_eq, List.forall₂_map_left_iff,
    List.forall₂_map_right_iff]
  exact (h.registrations kind).imp fun _ _ hxy => hxy.2

/-- The entities of a renamed registry have the names of the old ones. -/
private theorem map_name? (kind : Kind) :
    (t.ofKind kind).map Entity.name? = (r.ofKind kind).map Entity.name? :=
  map_eq_of_forall₂ (h.ofKind kind) fun _ _ hef => hef.name?_eq

/-- A renamed entity that is entered under its new identifier keeps the registries related. -/
theorem enter {id id' : String} {e f : Entity} (hid : id' = ρ.of e.kind id)
    (hef : ρ.Renames e f) : ρ.Relates (r.enter id e) (t.enter id' f) := by
  refine ⟨by simp only [Registry.names_enter, h.names], fun kind => ?_⟩
  rw [Registry.registrations_enter, Registry.registrations_enter]
  refine List.rel_append (h.registrations kind) ?_
  -- Both entities are of one kind, so both come last there or neither shows.
  by_cases hkind : e.kind = kind
  · subst hkind
    have hleft : e.kind.among [(id, e)] = [(id, e)] := by simp [Kind.among]
    have hright : e.kind.among [(id', f)] = [(id', f)] := by simp [Kind.among, hef.kind_eq]
    rw [hleft, hright]
    exact .cons ⟨hid, hef⟩ .nil
  · simp [Kind.among, hef.kind_eq, hkind]

/-- Renamed additions to the renamed entity keep the registries related. -/
theorem extend (kind : Kind) (id : String) {x y : Additions} (hxy : ρ.Extends x y) :
    ρ.Relates (r.extend kind id x) (t.extend kind (ρ.of kind id) y) := by
  refine ⟨by simp only [Registry.names_extend, h.names], fun k => ?_⟩
  rw [Registry.registrations_extend, Registry.registrations_extend, List.forall₂_map_left_iff,
    List.forall₂_map_right_iff]
  refine (h.registrations k).imp fun a b hab => ⟨hab.1, ?_⟩
  -- The same entity is extended, as new identifiers are equal only where the old ones are.
  have hiff : k = kind ∧ b.1 = ρ.of kind id ↔ k = kind ∧ a.1 = id := by
    refine and_congr_right fun hk => ?_
    rw [hab.1, hk, (ρ.of_injective kind).eq_iff]
  simp only [hiff]
  split
  · exact hab.2.extend hxy
  · exact hab.2

/-- A renamed entity is registered or refused as the old one is. -/
theorem register {id id' : Identifier} {e f : Entity} (hid : id'.text = ρ.of e.kind id.text)
    (hef : ρ.Renames e f) : Matches ρ.Relates (r.register id e) (t.register id' f) := by
  have htaken : id'.text ∈ t.keys e.kind ↔ id.text ∈ r.keys e.kind := by
    rw [hid, h.mem_keys_iff]
  simp only [Registry.register, hef.kind_eq, hef.name?_eq, h.map_name?, htaken]
  split
  · exact .error trivial
  · split
    · exact .error trivial
    · exact .ok (h.enter hid hef)

/-- A command and its replay succeed in related registries, or both fail. -/
theorem apply {c c' : Command} (hc : ρ.Replays c c') :
    Matches ρ.Relates (r.apply c) (t.apply c') := by
  cases hc with
  | define hd =>
    rw [Registry.apply, Registry.apply, Registry.define_eq, Registry.define_eq]
    exact hd.described.bind fun x y hxy => h.register hxy.1 hxy.2
  | link hl =>
    rw [Registry.apply, Registry.apply, Registry.link_eq, Registry.link_eq, hl.owner]
    simp only [h.mem_keys_iff]
    -- The owners are registered in both registries or in neither.
    split
    · exact hl.additions.map fun x y hxy => h.extend _ _ hxy
    · exact .error trivial

/-- A renamed command succeeds or fails as the old one does, and keeps the registries related. -/
theorem attempt {c c' : Command} (hc : ρ.Replays c c') :
    ρ.Relates (r.attempt c) (t.attempt c') := by
  have hmatches := h.apply hc
  rw [Registry.attempt, Registry.attempt]
  generalize r.apply c = x at hmatches ⊢
  generalize t.apply c' = y at hmatches ⊢
  cases hmatches with
  | error _ => exact h
  | ok hnext => exact hnext

end Relates

/-- Empty registries are related by any renaming. -/
theorem relates_empty (names : Names) : ρ.Relates (.empty names) (.empty names) := by
  refine ⟨rfl, fun kind => ?_⟩
  rw [Registry.registrations_empty]
  exact .nil

/-- Replaying commands leads to related registries, and the same commands succeed. -/
theorem Relates.attempts {r t : Registry} (h : ρ.Relates r t) {cs ds : List Command}
    (hcs : cs.Forall₂ ρ.Replays ds) :
    ρ.Relates (r.attempts cs) (t.attempts ds) ∧ t.successes ds = r.successes cs := by
  induction hcs generalizing r t with
  | nil => exact ⟨h, rfl⟩
  | cons hc _ ih =>
    obtain ⟨hrelates, hsuccesses⟩ := ih (h.attempt hc)
    refine ⟨hrelates, ?_⟩
    rw [Registry.successes, Registry.successes, (h.apply hc).isOk_eq, hsuccesses]

end Renaming

end AccessGraph
