import AccessGraph.Proofs.Registry.Registrations

/-!
# How a registry grows

What happens to a registry is one of two things: an entity is entered at the end of those of its
kind (`Registry.Adds`), or the references of entities get longer (`Registry.Rewires`).
`Registry.Grows` is a run of both, with the entities that were entered on the way.

Identifiers and names stay distinct in such a run (`Registry.Grows.distinct`), and every entity
stays in its place with its configuration (`Registry.Grows.registrations`).
-/

namespace AccessGraph

namespace Registry

variable {r t u : Registry}

/-! ## One step -/

/-- An entity is entered under an identifier, at the end of those of its kind, where the identifier
is free and so is the name if entities of the kind are found by it. -/
structure Adds (r : Registry) (x : Registration) (t : Registry) : Prop where
  free : x.1 ∉ r.keys x.2.kind
  fresh : x.2.kind ∈ Kind.named → ∀ e ∈ r.ofKind x.2.kind, e.name? ≠ x.2.name?
  own : x.2.isScripted = false → x.1 = x.2.identifier.text
  registrations : ∀ kind, t.registrations kind = r.registrations kind ++ kind.among [x]

/-- References are continued, and nothing else is changed. -/
def Rewires (r t : Registry) : Prop :=
  ∀ kind, (r.registrations kind).Forall₂ Registration.Kept (t.registrations kind)

/-- Entering an entity into its store enters it into the registry. -/
private theorem adds_of_push {α : Type} {s : Store α} {wrap : α → Entity} {id : Identifier} {a : α}
    (hs : r.registrations (wrap a).kind = s.registrations wrap)
    (ht : ∀ kind, t.registrations kind
      = if (wrap a).kind = kind then (s.push id.text a).registrations wrap
        else r.registrations kind)
    (hfree : s.contains id.text = false)
    (hfresh : (wrap a).kind ∈ Kind.named → ∀ b ∈ s.toList, (wrap b).name? ≠ (wrap a).name?)
    (hown : (wrap a).isScripted = false → id = (wrap a).identifier) :
    r.Adds (id.text, wrap a) t := by
  refine ⟨?_, fun hnamed e he => ?_, fun hscript => congrArg Identifier.text (hown hscript),
    fun kind => ?_⟩
  · -- The identifier was free.
    rw [keys, hs, Store.map_fst_registrations]
    exact Store.not_mem_keys hfree
  · -- So was the name, where names count.
    rw [ofKind_eq, hs, Store.map_snd_registrations] at he
    obtain ⟨b, hb, rfl⟩ := List.mem_map.mp he
    exact hfresh hnamed b hb
  · -- One kind has another registration at its end, and no other kind has changed.
    rw [ht]
    by_cases hkind : (wrap a).kind = kind
    · rw [if_pos hkind, Store.registrations_push, ← hkind, hs]
      simp [Kind.among]
    · simp [hkind, Kind.among]

/-- What a store without names registers comes last among its kind, under an identifier that was
free. -/
theorem adds_of_register {α : Type} {s s' : Store α} {wrap : α → Entity} {kind : Kind}
    {id : Identifier} {a : α} (h : s.register kind id a = .ok s')
    (hnamed : (wrap a).kind ∉ Kind.named)
    (hs : r.registrations (wrap a).kind = s.registrations wrap)
    (ht : ∀ kind, t.registrations kind
      = if (wrap a).kind = kind then s'.registrations wrap else r.registrations kind)
    (hown : (wrap a).isScripted = false → id = (wrap a).identifier) :
    r.Adds (id.text, wrap a) t := by
  obtain ⟨hfree, rfl⟩ := Store.register_eq_ok.mp h
  exact adds_of_push hs ht hfree (fun hkind => absurd hkind hnamed) hown

/-- What a store with names registers comes last among its kind, under an identifier and a name that
were free. -/
private theorem adds_of_registerNamed {α : Type} {s s' : Store α} {wrap : α → Entity} {kind : Kind}
    {name : α → String} {id : Identifier} {a : α} (h : s.registerNamed kind name id a = .ok s')
    (hname : ∀ b, (wrap b).name? = some (name b))
    (hs : r.registrations (wrap a).kind = s.registrations wrap)
    (ht : ∀ kind, t.registrations kind
      = if (wrap a).kind = kind then s'.registrations wrap else r.registrations kind)
    (hown : (wrap a).isScripted = false → id = (wrap a).identifier) :
    r.Adds (id.text, wrap a) t := by
  obtain ⟨hfree, hfresh, rfl⟩ := Store.registerNamed_eq_ok.mp h
  refine adds_of_push hs ht hfree (fun _ b hb heq => hfresh b hb ?_) hown
  rw [hname, hname] at heq
  exact Option.some.inj heq

/-! Each kind is registered in its own store and leaves the others as they are. -/

/-- A setting that is added comes last among the settings. -/
theorem adds_of_addSetting {id : Identifier} {e : Entry Setting}
    (hown : (Entity.setting e).isScripted = false → id = e.settingKey)
    (h : r.addSetting id e = .ok t) : r.Adds (id.text, .setting e) t := by
  obtain ⟨s, hs, rfl⟩ := Except.map_eq_ok.mp h
  exact adds_of_register hs (by simp [Entity.kind, Kind.named]) rfl
    (fun kind => by cases kind <;> rfl) hown

theorem adds_of_addPermission {id : Identifier} {e : Entry Permission}
    (hown : (Entity.permission e).isScripted = false → id = e.permissionId)
    (h : r.addPermission id e = .ok t) : r.Adds (id.text, .permission e) t := by
  obtain ⟨s, hs, rfl⟩ := Except.map_eq_ok.mp h
  exact adds_of_registerNamed hs (fun _ => rfl) rfl (fun kind => by cases kind <;> rfl) hown

theorem adds_of_addGroup {id : Identifier} {e : Entry Group}
    (hown : (Entity.group e).isScripted = false → id = e.groupId)
    (h : r.addGroup id e = .ok t) : r.Adds (id.text, .group e) t := by
  obtain ⟨s, hs, rfl⟩ := Except.map_eq_ok.mp h
  exact adds_of_registerNamed hs (fun _ => rfl) rfl (fun kind => by cases kind <;> rfl) hown

theorem adds_of_addRole {id : Identifier} {e : Entry Role}
    (hown : (Entity.role e).isScripted = false → id = e.roleId)
    (h : r.addRole id e = .ok t) : r.Adds (id.text, .role e) t := by
  obtain ⟨s, hs, rfl⟩ := Except.map_eq_ok.mp h
  exact adds_of_registerNamed hs (fun _ => rfl) rfl (fun kind => by cases kind <;> rfl) hown

theorem adds_of_addAccount {id : Identifier} {e : Entry Account}
    (hown : (Entity.account e).isScripted = false → id = e.accountId)
    (h : r.addAccount id e = .ok t) : r.Adds (id.text, .account e) t := by
  obtain ⟨s, hs, rfl⟩ := Except.map_eq_ok.mp h
  exact adds_of_register hs (by simp [Entity.kind, Kind.named]) rfl
    (fun kind => by cases kind <;> rfl) hown

/-- An identifier that is accepted is what the value gives. -/
theorem nonEmptyIdentifier_eq_ok {v : Value} {e : Error} {id : Identifier}
    (h : nonEmptyIdentifier v e = .ok id) : Identifier.ofValue? v = some id := by
  unfold nonEmptyIdentifier at h
  split at h
  · next i hi =>
    split at h
    · simp at h
    · rw [hi, Except.ok.inj h]
  · simp at h

/-- A definition that is accepted adds an entity of its kind under its identifier. -/
theorem adds_of_define {d : Definition} (h : r.define d = .ok t) :
    ∃ id e, d.id? = some id ∧ e.kind = d.kind ∧ e.isScripted = false ∧
      r.Adds (id.text, e) t := by
  -- The checks come first, of the identifier and of the configuration; the registration is last.
  cases d with
  | setting key value =>
    obtain ⟨id, hid, h⟩ := Except.bind_eq_ok.mp h
    split at h
    · exact ⟨id, _, nonEmptyIdentifier_eq_ok hid, rfl, rfl, adds_of_addSetting (fun _ => rfl) h⟩
    · simp at h
  | permission id config =>
    obtain ⟨c, -, h⟩ := Except.bind_eq_ok.mp h
    exact ⟨id, _, rfl, rfl, rfl, adds_of_addPermission (fun _ => rfl) h⟩
  | group id config =>
    obtain ⟨c, -, h⟩ := Except.bind_eq_ok.mp h
    exact ⟨id, _, rfl, rfl, rfl, adds_of_addGroup (fun _ => rfl) h⟩
  | role id config =>
    obtain ⟨c, -, h⟩ := Except.bind_eq_ok.mp h
    exact ⟨id, _, rfl, rfl, rfl, adds_of_addRole (fun _ => rfl) h⟩
  | account v config =>
    obtain ⟨id, hid, h⟩ := Except.bind_eq_ok.mp h
    obtain ⟨c, -, h⟩ := Except.bind_eq_ok.mp h
    exact ⟨id, _, nonEmptyIdentifier_eq_ok hid, rfl, rfl, adds_of_addAccount (fun _ => rfl) h⟩

/-- A script that is accepted is added as an entity of its kind. -/
theorem adds_of_script {kind : Kind} {id : Identifier} {s : Scripted}
    (h : r.script kind id s = .ok t) : r.Adds (id.text, .ofScript kind s) t := by
  -- A script may stand under another identifier than its own.
  cases kind with
  | setting => exact adds_of_addSetting (fun hs => Bool.noConfusion hs) h
  | permission => exact adds_of_addPermission (fun hs => Bool.noConfusion hs) h
  | group => exact adds_of_addGroup (fun hs => Bool.noConfusion hs) h
  | role => exact adds_of_addRole (fun hs => Bool.noConfusion hs) h
  | account => exact adds_of_addAccount (fun hs => Bool.noConfusion hs) h

/-- More permissions of a group leave all registrations in place. -/
private theorem rewires_modifyGroup (r : Registry) (id : String) (permissions : List Value) :
    r.Rewires
      (r.modifyGroup id fun g => { g with permissions := g.permissions ++ permissions }) := by
  intro kind
  cases kind with
  | group => exact Store.kept_modify r.groups id fun g => .group g permissions
  | _ => exact forall₂_kept_refl _

private theorem rewires_modifyRole (r : Registry) (id : String) (permissions : List Value)
    (assignments : List Assignment) :
    r.Rewires (r.modifyRole id fun o => { o with
      permissions := o.permissions ++ permissions
      assignments := o.assignments ++ assignments }) := by
  intro kind
  cases kind with
  | role => exact Store.kept_modify r.roles id fun o => .role o permissions assignments
  | _ => exact forall₂_kept_refl _

private theorem rewires_modifyAccount (r : Registry) (id : String) (roles : List Value)
    (overrides : List Override) :
    r.Rewires (r.modifyAccount id fun a => { a with
      roles := a.roles ++ roles
      overrides := a.overrides ++ overrides }) := by
  intro kind
  cases kind with
  | account => exact Store.kept_modify r.accounts id fun a => .account a roles overrides
  | _ => exact forall₂_kept_refl _

/-- A link that is accepted continues the references of its owner. -/
theorem rewires_of_link {l : Link} (h : r.link l = .ok t) : r.Rewires t := by
  -- Whatever is read first, a link changes the lists of one entity.
  cases l with
  | groupPermission id v =>
    obtain ⟨_, -, h⟩ := Except.bind_eq_ok.mp h
    obtain rfl := Except.ok.inj h
    exact rewires_modifyGroup r id [v]
  | rolePermission id v =>
    obtain ⟨_, -, h⟩ := Except.bind_eq_ok.mp h
    obtain rfl := Except.ok.inj h
    simpa using rewires_modifyRole r id [v] []
  | roleGroup id v terms =>
    obtain ⟨_, -, h⟩ := Except.bind_eq_ok.mp h
    obtain ⟨a, -, h⟩ := Except.bind_eq_ok.mp h
    obtain rfl := Except.ok.inj h
    simpa using rewires_modifyRole r id [] [a]
  | accountRole id v =>
    obtain ⟨_, -, h⟩ := Except.bind_eq_ok.mp h
    obtain rfl := Except.ok.inj h
    simpa using rewires_modifyAccount r id [v] []
  | override id isGrant v terms =>
    obtain ⟨_, -, h⟩ := Except.bind_eq_ok.mp h
    obtain ⟨o, -, h⟩ := Except.bind_eq_ok.mp h
    obtain rfl := Except.ok.inj h
    simpa using rewires_modifyAccount r id [] [o]

/-- What was added comes last among its kind. -/
private theorem Adds.registrations_self {x : Registration} (h : r.Adds x t) :
    t.registrations x.2.kind = r.registrations x.2.kind ++ [x] := by
  rw [h.registrations]
  simp [Kind.among]

/-- What was added does not show among the other kinds. -/
theorem Adds.registrations_other {x : Registration} (h : r.Adds x t) {kind : Kind}
    (hkind : x.2.kind ≠ kind) : t.registrations kind = r.registrations kind := by
  rw [h.registrations]
  simp [Kind.among, hkind]

/-- The entity that was added is found under its identifier. -/
theorem Adds.entity {x : Registration} (h : r.Adds x t) {id : Identifier} (hid : id.text = x.1) :
    t.entity x.2.kind id = .ok x.2 := by
  -- The identifier was free, so that the look-up goes on to what was added at the end.
  have hnone : (r.registrations x.2.kind).lookup x.1 = none := by
    refine List.lookup_eq_none_iff.mpr fun y hy => ?_
    have hne : y.1 ≠ x.1 := fun heq => h.free (heq ▸ List.mem_map_of_mem hy)
    simpa using Ne.symm hne
  rw [entity_eq, h.registrations_self, List.lookup_append, hid, hnone, Option.none_or,
    List.lookup_cons, beq_self_eq_true]
  rfl

/-! ## What a step keeps -/

/-- An entity under a free identifier and name keeps all identifiers and names distinct. -/
theorem Distinct.adds {x : Registration} (h : r.Distinct) (hstep : r.Adds x t) : t.Distinct := by
  -- Only the kind of the new entity is concerned, where its identifier and its name were free.
  refine ⟨fun kind => ?_, fun kind hnamed => ?_, fun kind y hy hscript => ?_⟩
  · by_cases hkind : x.2.kind = kind
    · subst hkind
      rw [Registry.keys, hstep.registrations_self]
      exact nodup_map_concat (h.keys _) fun y hy heq =>
        hstep.free (heq ▸ List.mem_map_of_mem hy)
    · rw [Registry.keys, hstep.registrations_other hkind]
      exact h.keys kind
  · by_cases hkind : x.2.kind = kind
    · subst hkind
      rw [ofKind_eq, hstep.registrations_self, List.map_append, ← ofKind_eq]
      exact nodup_map_concat (h.names _ hnamed) (hstep.fresh hnamed)
    · rw [ofKind_eq, hstep.registrations_other hkind, ← ofKind_eq]
      exact h.names kind hnamed
  · rw [hstep.registrations] at hy
    rcases List.mem_append.mp hy with hy | hy
    · exact h.own kind y hy hscript
    · obtain rfl := List.mem_singleton.mp (List.mem_of_mem_filter hy)
      exact hstep.own hscript

/-- Rewiring changes no identifier. -/
private theorem Rewires.keys_eq (h : r.Rewires t) (kind : Kind) : t.keys kind = r.keys kind :=
  map_eq_of_forall₂ (h kind) fun _ _ hxy => hxy.1

/-- Rewiring keeps all identifiers and names distinct. -/
theorem Distinct.rewires (h : r.Distinct) (hstep : r.Rewires t) : t.Distinct := by
  refine ⟨fun kind => ?_, fun kind hnamed => ?_, fun kind y hy hscript => ?_⟩
  · rw [hstep.keys_eq]
    exact h.keys kind
  · -- Neither identifiers nor names depend on references.
    have hnames : (t.ofKind kind).map Entity.name? = (r.ofKind kind).map Entity.name? := by
      rw [ofKind_eq, ofKind_eq, List.map_map, List.map_map]
      exact map_eq_of_forall₂ (hstep kind) fun _ _ hxy => hxy.2.name?_eq
    rw [hnames]
    exact h.names kind hnamed
  · obtain ⟨x, hx, hkey, hlater⟩ := kept_of_mem (hstep kind) hy
    rw [hkey, hlater.identifier_eq]
    exact h.own kind x hx (hlater.isScripted_eq ▸ hscript)

/-! ## Runs -/

/-- A run of steps, each of which adds an entity or continues references, with what was added. -/
inductive Grows (r : Registry) : List Registration → Registry → Prop
  | refl : Grows r [] r
  | add {new : List Registration} {x : Registration} {t u : Registry} :
    Grows r new t → t.Adds x u → Grows r (new ++ [x]) u
  | rewire {new : List Registration} {t u : Registry} :
    Grows r new t → t.Rewires u → Grows r new u

namespace Grows

variable {new more : List Registration}

theorem trans (h : r.Grows new t) (h' : t.Grows more u) : r.Grows (new ++ more) u := by
  induction h' with
  | refl => rwa [List.append_nil]
  | add _ hstep ih => rw [← List.append_assoc]; exact .add ih hstep
  | rewire _ hstep ih => exact .rewire ih hstep

/-- Growth keeps all identifiers and names distinct. -/
theorem distinct (h : r.Grows new t) (hr : r.Distinct) : t.Distinct := by
  induction h with
  | refl => exact hr
  | add _ hstep ih => exact ih.adds hstep
  | rewire _ hstep ih => exact ih.rewires hstep

/-- The registrations of a kind are those there were, followed by the new ones in the order in
which they were made, each at its later time. -/
theorem registrations (h : r.Grows new t) (kind : Kind) :
    (r.registrations kind ++ kind.among new).Forall₂ Registration.Kept (t.registrations kind) := by
  -- An addition continues both lists in the same way; continued references relate the list of
  -- one moment to that of the next.
  induction h with
  | refl =>
    rw [show kind.among [] = [] from rfl, List.append_nil]
    exact forall₂_kept_refl _
  | add _ hstep ih =>
    rw [Kind.among, List.filter_append, ← List.append_assoc, hstep.registrations]
    exact List.rel_append ih (forall₂_kept_refl _)
  | rewire _ hstep ih => exact forall₂_kept_trans ih (hstep kind)

/-- New identifiers come behind the old ones. -/
theorem keys (h : r.Grows new t) (kind : Kind) :
    t.keys kind = r.keys kind ++ (kind.among new).map Prod.fst := by
  rw [Registry.keys, Registry.keys, ← List.map_append]
  exact map_eq_of_forall₂ (h.registrations kind) fun _ _ hxy => hxy.1

/-- What a registry finds it also finds later. -/
theorem entity (h : r.Grows new t) {kind : Kind} {id : Identifier} {e : Entity}
    (he : r.entity kind id = .ok e) : ∃ f, t.entity kind id = .ok f ∧ e.Later f := by
  rw [entity_eq] at he ⊢
  cases hold : (r.registrations kind).lookup id.text with
  | none => simp [hold] at he
  | some d =>
    rw [hold] at he
    obtain rfl := Except.ok.inj he
    -- What is found first stays first, as the new registrations come behind.
    have hd : (r.registrations kind ++ kind.among new).lookup id.text = some d := by
      rw [List.lookup_append, hold, Option.some_or]
    obtain ⟨f, hf, hlater⟩ := lookup_of_kept (h.registrations kind) hd
    exact ⟨f, by rw [hf]; rfl, hlater⟩

end Grows

/-- What was registered is found later. -/
theorem Grows.entity_of_mem {new : List Registration} (h : r.Grows new t) (ht : t.Distinct)
    {x : Registration} (hx : x ∈ new) {id : Identifier} (hid : id.text = x.1) :
    ∃ f, t.entity x.2.kind id = .ok f ∧ x.2.Later f := by
  have hamong : x ∈ r.registrations x.2.kind ++ x.2.kind.among new :=
    List.mem_append_right _ (List.mem_filter.mpr ⟨hx, beq_self_eq_true _⟩)
  obtain ⟨y, hy, hkey, hlater⟩ := exists_of_forall₂ (h.registrations x.2.kind) hamong
  exact ⟨y.2, ht.entity_of_mem hy (hid.trans hkey.symm), hlater⟩

end Registry

end AccessGraph
