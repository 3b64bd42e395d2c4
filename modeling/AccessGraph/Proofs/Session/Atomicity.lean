import AccessGraph.Proofs.Registry.Interleaving
import AccessGraph.Proofs.Session.History

/-!
# What a step changes

A step of a session takes effect wholly or leaves the session as it was.  Two sorts of steps do
several things one after another and stop at the first that fails, keeping what was done before it
(`Step.isPiecemeal`): giving several permissions, and building a graph in a registry.

`Session.StepsExact` says when definitions, attachments, assignments and overrides succeed, what
they change and how they fail, and how far the two piecemeal sorts of steps get.
`Session.steps_exact` proves it of every session.
-/

namespace AccessGraph

/-- Whether a step does several things one after another, so that it can stop midway. -/
def Step.isPiecemeal : Step → Bool
  | .givePermissions _ _ => true
  | .buildInto _ _ => true
  | _ => false

namespace Entity

variable {e : Entity}

/-- Only a configured role has assignments. -/
private theorem assignments?_eq_some {as : List Assignment} :
    e.assignments? = some as ↔ ∃ o, e = .role (.configured o) ∧ as = o.assignments := by
  cases e with
  | role d => cases d <;> simp [assignments?, Entry.elim, eq_comm]
  | _ => simp [assignments?]

private theorem roles?_eq_some {vs : List Value} :
    e.roles? = some vs ↔ ∃ a, e = .account (.configured a) ∧ vs = a.roles := by
  cases e with
  | account d => cases d <;> simp [roles?, Entry.elim, eq_comm]
  | _ => simp [roles?]

private theorem overrides?_eq_some {os : List Override} :
    e.overrides? = some os ↔ ∃ a, e = .account (.configured a) ∧ os = a.overrides := by
  cases e with
  | account d => cases d <;> simp [overrides?, Entry.elim, eq_comm]
  | _ => simp [overrides?]

/-- Permissions are given to groups and to roles. -/
private theorem permissions?_extend {old : List Value} (h : e.permissions? = some old)
    (ids : List Value) : (e.extend { permissions := ids }).permissions? = some (old ++ ids) := by
  -- only a group and a role have a list of permissions, and only a read one keeps it
  cases e with
  | group d =>
    cases d with
    | configured g => simpa [permissions?, Entry.elim, extend] using h
    | scripted _ => simp [permissions?, Entry.elim] at h
  | role d =>
    cases d with
    | configured o => simpa [permissions?, Entry.elim, extend] using h
    | scripted _ => simp [permissions?, Entry.elim] at h
  | _ => simp [permissions?] at h

/-- What has permissions takes another one by a link of its own, which adds just that. -/
private theorem permissionLink?_of_permissions? {old : List Value} (h : e.permissions? = some old)
    (id : String) (v : Value) :
    ∃ l, e.permissionLink? id v = some l ∧ l.owner = (e.kind, id) ∧
      l.additions = .ok { permissions := [v] } := by
  cases e with
  | group d => exact ⟨.groupPermission id v, rfl, rfl, rfl⟩
  | role d => exact ⟨.rolePermission id v, rfl, rfl, rfl⟩
  | _ => simp [permissions?] at h

end Entity

namespace Session

variable {s t u : Session} {r : Registry} {n : String} {kind : Kind} {i : Identifier} {e : Entity}

/-- Two sessions that hold the same registries under the same names. -/
structure Same (s t : Session) : Prop where
  defaults : t.defaults = s.defaults
  registry : ∀ name, t.registry? name = s.registry? name

theorem Same.trans (h : Same s t) (h' : Same t u) : Same s u :=
  ⟨h'.defaults.trans h.defaults, fun name => (h'.registry name).trans (h.registry name)⟩

/-- Putting a registry back where it is changes nothing. -/
private theorem same_put_self (hr : s.registry? n = some r) : Same (s.put n r) s := by
  refine ⟨rfl, fun name => ?_⟩
  rw [lookup_put]
  split
  · next hname => rw [hname, hr]
  · rfl

/-- Of two registries put under one name the later one stays. -/
private theorem same_put_put (s : Session) (n : String) (r t : Registry) :
    Same (s.put n t) ((s.put n r).put n t) := by
  refine ⟨rfl, fun name => ?_⟩
  rw [lookup_put, lookup_put, lookup_put]
  split <;> rfl

/-- A reference leads to the same in sessions that are the same. -/
private theorem Same.find_eq (h : Same s t) (ref : Ref) : t.find ref = s.find ref := by
  cases ref with
  | registered m kind i =>
    have hm : t.registry m = s.registry m := by
      rw [Session.registry, Session.registry, h.registry]
    rw [find, find, hm]
  | standIn target => rfl

/-! ## Parts of steps -/

/-- A step that is taken whole succeeds with what it does. -/
private theorem whole_eq_ok {x : Except Fault (Session × Reply)} {reply : Reply} :
    s.whole x = (t, .ok reply) ↔ x = .ok (t, reply) := by
  cases x <;> simp [whole, Prod.ext_iff]

/-- A step that is taken whole fails without doing anything. -/
private theorem whole_eq_error {x : Except Fault (Session × Reply)} {fault : Fault} :
    s.whole x = (t, .error fault) ↔ t = s ∧ x = .error fault := by
  cases x <;> simp [whole, eq_comm]

/-- A fault of the library is its error. -/
private theorem orFault_eq_error {α : Type} {x : Except Error α} {fault : Fault} :
    orFault x = .error fault ↔ ∃ e, x = .error e ∧ fault = .error e := by
  cases x <;> simp [orFault, eq_comm]

/-- A value that is handed in passes if it is sound. -/
private theorem orBroken_eq_ok {α : Type} {c : Checked α} {a : α} :
    orBroken c = .ok a ↔ c = .ok a := by
  cases c <;> simp [orBroken]

/-- What an entity is asked for is what it has. -/
theorem orUnsuitable_eq_ok {α : Type} {x : Option α} {a : α} :
    orUnsuitable x = .ok a ↔ x = some a := by
  cases x <;> simp [orUnsuitable]

/-- A command on a registry of a session puts the changed registry in its place. -/
theorem apply_eq (hr : s.registry? n = some r) (c : Command) :
    s.apply n c = (orFault (r.apply c)).map (s.put n) := by
  rw [apply, registry_eq_ok.mpr hr]
  show (orFault (r.apply c) >>= fun t => Except.ok (s.put n t)) = _
  cases r.apply c <;> rfl

/-- A reference leads to an entity that is registered where the reference says. -/
theorem find_eq_ok {ref : Ref} {id : String} {e : Entity} :
    s.find ref = .ok (n, id, e) ↔
      ∃ kind i r, ref = .registered n kind i ∧ id = i.text ∧ s.registry? n = some r ∧
        r.entity kind i = .ok e := by
  constructor
  · intro h
    cases ref with
    | registered m kind i =>
      obtain ⟨r, hr, h⟩ := Except.bind_eq_ok.mp h
      obtain ⟨f, hf, h⟩ := Except.bind_eq_ok.mp h
      obtain ⟨rfl, rfl, rfl⟩ : m = n ∧ i.text = id ∧ f = e := by simpa using Except.ok.inj h
      exact ⟨kind, i, r, rfl, rfl, registry_eq_ok.mp hr, orFault_eq_ok.mp hf⟩
    -- a stand-in is found nowhere: its reading ends in a fault
    | standIn target =>
      obtain ⟨_, -, h⟩ := Except.bind_eq_ok.mp h
      simp at h
  · intro h
    obtain ⟨kind, i, r, rfl, rfl, hr, he⟩ := h
    exact find_registered (registry_eq_ok.mpr hr) he

/-! ## Definitions -/

/-- A definition registers what it describes, and shows it. -/
theorem stepDefine_eq (hr : s.registry? n = some r) (d : Definition) :
    s.stepDefine n d = orFault (d.described >>= fun x =>
      (r.register x.1 x.2).map fun t => (s.put n t, .entity x.2)) := by
  rw [stepDefine, apply_eq hr, Registry.apply, Registry.define_eq]
  cases hd : d.described with
  | error e => rfl
  | ok x =>
    obtain ⟨id, e⟩ := x
    obtain ⟨hid, hkind, hscript, hown⟩ := d.of_described hd
    show ((orFault (r.register id e)).map (s.put n) >>= fun s => _)
      = orFault ((r.register id e).map fun t => (s.put n t, Reply.entity e))
    cases hreg : r.register id e with
    | error e' => rfl
    | ok t =>
      -- The entity is found where it was entered just before.
      obtain ⟨hfree, hfresh, rfl⟩ := Registry.register_eq_ok.mp hreg
      have hadds : r.Adds (id.text, e) (r.enter id.text e) :=
        ⟨hfree, hfresh, fun _ => congrArg Identifier.text hown.symm,
          r.registrations_enter id.text e⟩
      have hregistry : (s.put n (r.enter id.text e)).registry n = .ok (r.enter id.text e) :=
        registry_eq_ok.mpr (by rw [lookup_put, if_pos rfl])
      have hentity : (r.enter id.text e).entity d.kind (d.id?.getD (.plain "")) = .ok e := by
        rw [← hkind, hid]
        exact hadds.entity rfl
      refine Except.bind_eq_ok.mpr ⟨s.put n (r.enter id.text e), rfl, ?_⟩
      exact Except.bind_eq_ok.mpr ⟨_, find_registered hregistry hentity, rfl⟩

/-- A definition succeeds just if it describes something whose identifier and name are free, and
enters that. -/
theorem step_define_eq_ok (hr : s.registry? n = some r) {d : Definition} {reply : Reply} :
    s.step n (.define d) = (t, .ok reply) ↔
      ∃ id e, d.described = .ok (id, e) ∧ id.text ∉ r.keys d.kind ∧
        (d.kind ∈ Kind.named → ∀ f ∈ r.ofKind d.kind, f.name? ≠ e.name?) ∧
        t = s.put n (r.enter id.text e) ∧ reply = .entity e := by
  -- what is left of the step is the registration of what the definition describes
  have hstep : s.step n (.define d) = (t, .ok reply) ↔
      ∃ id e, d.described = .ok (id, e) ∧
        ∃ r', r.register id e = .ok r' ∧ (s.put n r', Reply.entity e) = (t, reply) := by
    rw [show s.step n (.define d) = s.whole (s.stepDefine n d) from rfl, whole_eq_ok,
      stepDefine_eq hr, orFault_eq_ok]
    simp only [Except.bind_eq_ok, Except.map_eq_ok, Prod.exists]
  rw [hstep]
  constructor
  · intro h
    obtain ⟨id, e, hd, r', hreg, heq⟩ := h
    obtain ⟨rfl, rfl⟩ := Prod.mk.inj heq
    obtain ⟨hfree, hfresh, rfl⟩ := Registry.register_eq_ok.mp hreg
    -- the tests of `register` are on the kind of the entity, which is the kind of the definition
    rw [(d.of_described hd).2.1] at hfree hfresh
    exact ⟨id, e, hd, hfree, hfresh, rfl, rfl⟩
  · intro h
    obtain ⟨id, e, hd, hfree, hfresh, rfl, rfl⟩ := h
    rw [← (d.of_described hd).2.1] at hfree hfresh
    exact ⟨id, e, hd, _, Registry.register_eq_ok.mpr ⟨hfree, hfresh, rfl⟩, rfl⟩

/-- A definition fails without any effect, for what it describes or for what is taken, the
identifier before the name. -/
private theorem step_define_eq_error (hr : s.registry? n = some r) {d : Definition}
    {fault : Fault} :
    s.step n (.define d) = (t, .error fault) ↔
      t = s ∧ ∃ err, fault = .error err ∧ (d.described = .error err ∨
        ∃ id e, d.described = .ok (id, e) ∧
          ((id.text ∈ r.keys d.kind ∧ err = .duplicateId d.kind id) ∨
            (id.text ∉ r.keys d.kind ∧ d.kind ∈ Kind.named ∧
              (∃ f ∈ r.ofKind d.kind, f.name? = e.name?) ∧
              err = .duplicateName d.kind (e.name?.getD "")))) := by
  rw [show s.step n (.define d) = s.whole (s.stepDefine n d) from rfl, whole_eq_error,
    stepDefine_eq hr, orFault_eq_error]
  refine and_congr_right fun _ => exists_congr fun err => ?_
  rw [and_comm, Except.bind_eq_error]
  refine and_congr_right fun _ => or_congr_right ?_
  simp only [Except.map_eq_error, Prod.exists]
  refine exists_congr fun id => exists_congr fun e => and_congr_right fun hd => ?_
  rw [Registry.register_eq_error, (d.of_described hd).2.1]

/-- What a definition is answered with depends on the entities of its own kind alone. -/
private theorem step_define_congr {m : String} {r' : Registry} (hr : s.registry? n = some r)
    (ht : t.registry? m = some r') {d : Definition}
    (hkind : r'.registrations d.kind = r.registrations d.kind) :
    (t.step m (.define d)).2 = (s.step n (.define d)).2 := by
  -- the reply sees the registry through `register` only
  have hreply : ∀ {s : Session} {n : String} {r : Registry}, s.registry? n = some r →
      (s.step n (.define d)).2 = orFault (d.described >>= fun x =>
        (r.register x.1 x.2).map fun _ => Reply.entity x.2) := by
    intro s n r hr
    rw [show s.step n (.define d) = s.whole (s.stepDefine n d) from rfl, stepDefine_eq hr]
    cases d.described with
    | error e => rfl
    | ok x =>
      show (s.whole (orFault ((r.register x.1 x.2).map _))).2
        = orFault ((r.register x.1 x.2).map _)
      cases r.register x.1 x.2 <;> rfl
  rw [hreply hr, hreply ht]
  cases hd : d.described with
  | error e => rfl
  | ok x =>
    obtain ⟨id, e⟩ := x
    -- and `register` sees the registrations of one kind only
    have hreg : ∀ r : Registry, (r.register id e).map (fun _ => Reply.entity e)
        = if id.text ∈ (r.registrations d.kind).map Prod.fst then .error (.duplicateId d.kind id)
          else if d.kind ∈ Kind.named
              ∧ e.name? ∈ ((r.registrations d.kind).map Prod.snd).map Entity.name? then
            .error (.duplicateName d.kind (e.name?.getD ""))
          else .ok (.entity e) := by
      intro r
      rw [Registry.register, (d.of_described hd).2.1, Registry.keys, Registry.ofKind_eq]
      split
      · rfl
      · split <;> rfl
    show orFault ((r'.register id e).map fun _ => Reply.entity e)
      = orFault ((r.register id e).map fun _ => Reply.entity e)
    rw [hreg, hreg, hkind]

/-! ## Links -/

/-- The owner of a link is found after it with what was added to its lists. -/
private theorem find_put_extend (he : r.entity kind i = .ok e) (x : Additions) :
    (s.put n (r.extend kind i.text x)).find (.registered n kind i)
      = .ok (n, i.text, e.extend x) := by
  have hregistry : (s.put n (r.extend kind i.text x)).registry n
      = .ok (r.extend kind i.text x) :=
    registry_eq_ok.mpr (by rw [lookup_put, if_pos rfl])
  refine find_registered hregistry ?_
  rw [Registry.entity_extend, he]
  simp [Except.map]

/-- A link in a registry that holds its owner. -/
private theorem apply_link_eq (hr : s.registry? n = some r) (he : r.entity kind i = .ok e)
    {l : Link}
    (howner : l.owner = (kind, i.text)) :
    s.apply n (.link l)
      = (orFault l.additions).map fun x => s.put n (r.extend kind i.text x) := by
  rw [apply_eq hr, Registry.apply, Registry.link_eq, howner,
    if_pos (Registry.mem_keys_of_entity he)]
  cases l.additions <;> rfl

/-- What an owner tells after a link that was added to it. -/
theorem change_eq_ok (hr : s.registry? n = some r) (he : r.entity kind i = .ok e) {l : Link}
    (howner : l.owner = (kind, i.text)) {tell : Entity → Option Reply} {reply : Reply} :
    s.change n kind i.text (.link l) tell = .ok (t, reply) ↔
      ∃ x, l.additions = .ok x ∧ t = s.put n (r.extend kind i.text x) ∧
        tell (e.extend x) = some reply := by
  have htext : i.text = (i.text : Identifier).text := rfl
  have he' : r.entity kind i.text = .ok e := Registry.entity_of_text htext he
  -- the reply is read off the entity after the change, at the same key
  have hfind : ∀ x : Additions, (s.put n (r.extend kind i.text x)).find
      (.registered n kind i.text) = .ok (n, i.text, e.extend x) := find_put_extend he'
  simp only [change, apply_link_eq hr he howner, Except.bind_eq_ok, Except.map_eq_ok,
    orFault_eq_ok, orUnsuitable_eq_ok]
  constructor
  · intro h
    obtain ⟨_, ⟨x, hx, rfl⟩, _, hfound, _, htell, heq⟩ := h
    obtain rfl := Except.ok.inj ((hfind x).symm.trans hfound)
    obtain ⟨rfl, rfl⟩ := Prod.mk.inj (Except.ok.inj heq)
    exact ⟨x, hx, rfl, htell⟩
  · intro h
    obtain ⟨x, hx, rfl, htell⟩ := h
    exact ⟨_, ⟨x, hx, rfl⟩, _, hfind x, _, htell, rfl⟩

/-- A step that adds one link to an owner, made of what is given. -/
theorem wire_eq_ok {α β : Type} {owner : Ref} {ask : Entity → Option α} {given : Except Fault β}
    {l : String → β → Link} {tell : Entity → Option Reply} {reply : Reply}
    (hkind : ∀ e a, ask e = some a → e.kind = kind) (howner : ∀ id b, (l id b).owner = (kind, id)) :
    (do
      let (m, id, e) ← s.find owner
      let _ ← orUnsuitable (ask e)
      let b ← given
      s.change m kind id (.link (l id b)) tell) = .ok (t, reply) ↔
      ∃ m id e r b x a, s.find owner = .ok (m, id, e) ∧ ask e = some a ∧
        s.registry? m = some r ∧ given = .ok b ∧ (l id b).additions = .ok x ∧
        t = s.put m (r.extend kind id x) ∧ tell (e.extend x) = some reply := by
  simp only [Except.bind_eq_ok, orUnsuitable_eq_ok]
  constructor
  · intro h
    obtain ⟨⟨m, id, e⟩, hfind, a, ha, b, hb, hchange⟩ := h
    obtain ⟨k, i, r, rfl, rfl, hr, he⟩ := find_eq_ok.mp hfind
    -- the owner can answer `ask`, so it is of the kind the link is written for
    obtain rfl : k = kind := (Registry.kind_of_entity he).symm.trans (hkind e a ha)
    obtain ⟨x, hx, ht, htell⟩ := (change_eq_ok hr he (howner i.text b)).mp hchange
    exact ⟨m, i.text, e, r, b, x, a, hfind, ha, hr, hb, hx, ht, htell⟩
  · intro h
    obtain ⟨m, id, e, r, b, x, a, hfind, ha, hr, hb, hx, ht, htell⟩ := h
    obtain ⟨k, i, r', rfl, rfl, hr', he⟩ := find_eq_ok.mp hfind
    obtain rfl : k = kind := (Registry.kind_of_entity he).symm.trans (hkind e a ha)
    obtain rfl : r = r' := Option.some.inj (hr.symm.trans hr')
    exact ⟨_, hfind, a, ha, b, hb, (change_eq_ok hr he (howner i.text b)).mpr ⟨x, hx, ht, htell⟩⟩

/-- A target and the terms it is linked on, the target first. -/
def onTerms (target : Except Fault Value) (terms : Checked Terms) :
    Except Fault (Value × Terms) := do
  let v ← target
  let tm ← orBroken terms
  return (v, tm)

/-- A target on terms is there just if both are. -/
theorem onTerms_eq_ok {target : Except Fault Value} {terms : Checked Terms} {b : Value × Terms} :
    onTerms target terms = .ok b ↔ target = .ok b.1 ∧ terms = .ok b.2 := by
  simp only [onTerms, Except.bind_eq_ok, orBroken_eq_ok]
  constructor
  · intro h
    obtain ⟨v, hv, tm, htm, heq⟩ := h
    obtain rfl := Except.ok.inj heq
    exact ⟨hv, htm⟩
  · intro h
    exact ⟨b.1, h.1, b.2, h.2, rfl⟩

/-- An assignment takes an account and a role, and adds one role to the list of the account. -/
theorem step_assignRole_eq_ok {account role : Ref} {reply : Reply} :
    s.step n (.assignRole account role) = (t, .ok reply) ↔
      ∃ m id a r v, s.find account = .ok (m, id, .account (.configured a)) ∧
        s.registry? m = some r ∧ s.targetId role = .ok v ∧
        t = s.put m (r.extend .account id { roles := [v] }) ∧
        reply = .references (a.roles ++ [v]) := by
  have hkind : ∀ e vs, Entity.roles? e = some vs → e.kind = .account := by
    intro e vs hvs
    obtain ⟨a, rfl, -⟩ := Entity.roles?_eq_some.mp hvs
    rfl
  rw [show s.step n (.assignRole account role) = s.whole (s.stepRole account role) from rfl,
    whole_eq_ok, stepRole, wire_eq_ok (l := fun id v => .accountRole id v) hkind fun _ _ => rfl]
  constructor
  · intro h
    obtain ⟨m, id, e, r, v, x, vs, hfind, hvs, hr, hv, hx, rfl, htell⟩ := h
    obtain ⟨a, rfl, rfl⟩ := Entity.roles?_eq_some.mp hvs
    obtain rfl := Except.ok.inj hx
    exact ⟨m, id, a, r, v, hfind, hr, hv, rfl, (Option.some.inj htell).symm⟩
  · intro h
    obtain ⟨m, id, a, r, v, hfind, hr, hv, rfl, rfl⟩ := h
    exact ⟨m, id, _, r, v, _, a.roles, hfind, rfl, hr, hv, rfl, rfl, rfl⟩

/-- An attachment takes a role, a group and terms that are accepted together, and adds one
assignment to the list of the role. -/
theorem step_attachGroup_eq_ok {role group : Ref} {terms : Checked Terms} {reply : Reply} :
    s.step n (.attachGroup role group terms) = (t, .ok reply) ↔
      ∃ m id o r g tm a, s.find role = .ok (m, id, .role (.configured o)) ∧
        s.registry? m = some r ∧ s.targetId group = .ok g ∧ terms = .ok tm ∧
        Registry.assignment g tm = .ok a ∧
        t = s.put m (r.extend .role id { assignments := [a] }) ∧
        reply = .assignments (o.assignments ++ [a]) := by
  have hkind : ∀ e as, Entity.assignments? e = some as → e.kind = .role := by
    intro e as has
    obtain ⟨o, rfl, -⟩ := Entity.assignments?_eq_some.mp has
    rfl
  -- the two checks after the owner's, in their order, as one check of a pair
  have hgiven : s.stepGroup role group terms = (do
      let (m, id, e) ← s.find role
      let _ ← orUnsuitable e.assignments?
      let b ← onTerms (s.targetId group) terms
      s.change m .role id (.link (.roleGroup id b.1 b.2)) fun e =>
        e.assignments?.map Reply.assignments) := by
    simp only [stepGroup, onTerms, bind_assoc, pure_bind]
  rw [show s.step n (.attachGroup role group terms) = s.whole (s.stepGroup role group terms)
    from rfl, whole_eq_ok, hgiven,
    wire_eq_ok (l := fun id (b : Value × Terms) => .roleGroup id b.1 b.2) hkind
      fun _ _ => rfl]
  constructor
  · intro h
    obtain ⟨m, id, e, r, ⟨g, tm⟩, x, as, hfind, has, hr, hb, hx, rfl, htell⟩ := h
    obtain ⟨hg, htm⟩ := onTerms_eq_ok.mp hb
    obtain ⟨o, rfl, rfl⟩ := Entity.assignments?_eq_some.mp has
    obtain ⟨a, ha, rfl⟩ := Except.map_eq_ok.mp hx
    exact ⟨m, id, o, r, g, tm, a, hfind, hr, hg, htm, ha, rfl, (Option.some.inj htell).symm⟩
  · intro h
    obtain ⟨m, id, o, r, g, tm, a, hfind, hr, hg, htm, ha, rfl, rfl⟩ := h
    exact ⟨m, id, _, r, (g, tm), _, o.assignments, hfind, rfl, hr, onTerms_eq_ok.mpr ⟨hg, htm⟩,
      Except.map_eq_ok.mpr ⟨a, ha, rfl⟩, rfl, rfl⟩

/-- A grant or a denial takes an account, a permission by name and terms that are accepted together,
and adds one override to the list of the account. -/
theorem step_override_eq_ok {account permission : Ref} {isGrant : Bool} {terms : Checked Terms}
    {reply : Reply} :
    s.step n (.override account isGrant permission terms) = (t, .ok reply) ↔
      ∃ m id a r p tm o, s.find account = .ok (m, id, .account (.configured a)) ∧
        s.registry? m = some r ∧ s.targetName permission = .ok p ∧ terms = .ok tm ∧
        Registry.overrideOf isGrant p tm = .ok o ∧
        t = s.put m (r.extend .account id { overrides := [o] }) ∧
        reply = .overrides (a.overrides ++ [o]) := by
  have hkind : ∀ e os, Entity.overrides? e = some os → e.kind = .account := by
    intro e os hos
    obtain ⟨a, rfl, -⟩ := Entity.overrides?_eq_some.mp hos
    rfl
  -- the two checks after the owner's, in their order, as one check of a pair
  have hgiven : s.stepOverride account isGrant permission terms = (do
      let (m, id, e) ← s.find account
      let _ ← orUnsuitable e.overrides?
      let b ← onTerms (s.targetName permission) terms
      s.change m .account id (.link (.override id isGrant b.1 b.2)) fun e =>
        e.overrides?.map Reply.overrides) := by
    simp only [stepOverride, onTerms, bind_assoc, pure_bind]
  rw [show s.step n (.override account isGrant permission terms)
    = s.whole (s.stepOverride account isGrant permission terms) from rfl, whole_eq_ok, hgiven,
    wire_eq_ok (l := fun id (b : Value × Terms) => .override id isGrant b.1 b.2) hkind
      fun _ _ => rfl]
  constructor
  · intro h
    obtain ⟨m, id, e, r, ⟨p, tm⟩, x, os, hfind, hos, hr, hb, hx, rfl, htell⟩ := h
    obtain ⟨hp, htm⟩ := onTerms_eq_ok.mp hb
    obtain ⟨a, rfl, rfl⟩ := Entity.overrides?_eq_some.mp hos
    obtain ⟨o, ho, rfl⟩ := Except.map_eq_ok.mp hx
    exact ⟨m, id, a, r, p, tm, o, hfind, hr, hp, htm, ho, rfl, (Option.some.inj htell).symm⟩
  · intro h
    obtain ⟨m, id, a, r, p, tm, o, hfind, hr, hp, htm, ho, rfl, rfl⟩ := h
    exact ⟨m, id, _, r, (p, tm), _, a.overrides, hfind, rfl, hr, onTerms_eq_ok.mpr ⟨hp, htm⟩,
      Except.map_eq_ok.mpr ⟨o, ho, rfl⟩, rfl, rfl⟩

/-! ## Steps that stop midway -/

/-- The identifier of a registered target. -/
private theorem targetId_registered (hr : s.registry? n = some r) :
    s.targetId (.registered n kind i)
      = orFault ((r.entity kind i).map fun e => e.identifier.value) := by
  rw [targetId, find, registry_eq_ok.mpr hr]
  · cases he : r.entity kind i with
    | error err => simp [orFault, he, bind, Except.bind, Except.map]
    | ok e => simp [orFault, he, bind, Except.bind, Except.map, pure, Except.pure]
  · simp

/-- Links keep what references lead to, as far as identifiers are concerned. -/
private theorem targetId_put_extend (hr : s.registry? n = some r) (id : String) (x : Additions)
    (ref : Ref) : (s.put n (r.extend kind id x)).targetId ref = s.targetId ref := by
  cases ref with
  | standIn target => rfl
  | registered m k j =>
    by_cases hm : m = n
    · -- The entity may have got additions, and keeps its identifier.
      subst hm
      have hput : registry? (s.put m (r.extend kind id x)) m = some (r.extend kind id x) := by
        rw [lookup_put, if_pos rfl]
      have hself : ∀ e : Entity, (if k = kind ∧ j.text = id then e.extend x else e).identifier
          = e.identifier := by
        intro e
        split
        · exact (e.later_extend x).identifier_eq
        · rfl
      rw [targetId_registered hput, targetId_registered hr, Registry.entity_extend]
      cases r.entity k j with
      | error err => rfl
      | ok e => simp only [Except.map, hself]
    · have hother : (s.put n (r.extend kind id x)).registry m = s.registry m := by
        rw [registry, registry, lookup_put, if_neg hm]
      simp only [targetId, find, hother]

/-- Giving one permission adds it to the owner, if it leads somewhere. -/
private theorem givePermission_eq {old : List Value} {ref : Ref} (hr : s.registry? n = some r)
    (he : r.entity kind i = .ok e) {owner : Entity} (hkind : owner.kind = kind)
    (hold : owner.permissions? = some old) :
    s.givePermission n i.text owner ref
      = (s.targetId ref).map fun v => s.put n (r.extend kind i.text { permissions := [v] }) := by
  rw [givePermission]
  cases s.targetId ref with
  | error fault => rfl
  | ok v =>
    -- an owner with permissions has a link for one more, written on itself
    obtain ⟨l, hl, howner, hadditions⟩ :=
      Entity.permissionLink?_of_permissions? hold i.text v
    show (orUnsuitable (owner.permissionLink? i.text v) >>= fun l => s.apply n (.link l)) = _
    rw [hl, orUnsuitable]
    show s.apply n (.link l) = _
    rw [apply_link_eq hr he (howner.trans (by rw [hkind])), hadditions]
    rfl

/-- Permissions that are found are given one after another; the first one that is not found ends
this, and leaves those before it with the owner. -/
private theorem givePermissions_eq {old : List Value} {owner : Entity} (hkind : owner.kind = kind)
    (hold : owner.permissions? = some old) {before : List Ref} {ids : List Value}
    (hids : before.Forall₂ (fun p v => s.targetId p = .ok v) ids)
    (hr : s.registry? n = some r) (he : r.entity kind i = .ok e) :
    ∃ t, Same (s.put n (r.extend kind i.text { permissions := ids })) t ∧
      s.givePermissions n i.text owner before = (t, none) ∧
      ∀ p fault after, s.targetId p = .error fault →
        s.givePermissions n i.text owner (before ++ p :: after) = (t, some fault) := by
  induction before generalizing s r e ids with
  | nil =>
    cases hids
    refine ⟨s, ?_, rfl, fun p fault after hp => ?_⟩
    · have hself : r.extend kind i.text { permissions := [] } = r :=
        Registry.extend_empty r kind i.text
      rw [hself]
      exact same_put_self hr
    · rw [List.nil_append, givePermissions, givePermission_eq hr he hkind hold, hp]
      rfl
  | cons q before ih =>
    cases hids with
    | @cons _ v _ vs hq hids =>
      -- The first permission is given, and the others are in the session that this leaves.
      have hgiven : s.givePermission n i.text owner q
          = .ok (s.put n (r.extend kind i.text { permissions := [v] })) := by
        rw [givePermission_eq hr he hkind hold, hq]
        rfl
      have htargets : ∀ p, (s.put n (r.extend kind i.text { permissions := [v] })).targetId p
          = s.targetId p := targetId_put_extend hr i.text _
      have hput : registry? (s.put n (r.extend kind i.text { permissions := [v] })) n
          = some (r.extend kind i.text { permissions := [v] }) := by
        rw [lookup_put, if_pos rfl]
      have he' : (r.extend kind i.text { permissions := [v] }).entity kind i
          = .ok (e.extend { permissions := [v] }) := by
        rw [Registry.entity_extend, he]
        simp [Except.map]
      have hrest : before.Forall₂ (fun p v' =>
          (s.put n (r.extend kind i.text { permissions := [v] })).targetId p = .ok v') vs :=
        hids.imp fun p v' hp => (htargets p).trans hp
      obtain ⟨t, hsame, hall, hstop⟩ := ih hrest hput he'
      rw [Registry.extend_extend] at hsame
      refine ⟨t, (same_put_put s n _ _).trans hsame, ?_, fun p fault after hp => ?_⟩
      · rw [givePermissions, hgiven]
        exact hall
      · rw [List.cons_append, givePermissions, hgiven]
        exact hstop p fault after ((htargets p).trans hp)

/-- Permissions that all lead somewhere are given in order, and the owner is told with them. -/
theorem step_givePermissions {old : List Value} {owner : Ref} {id : String}
    (hfind : s.find owner = .ok (n, id, e)) (hold : e.permissions? = some old)
    (hr : s.registry? n = some r) {before : List Ref} {ids : List Value}
    (hids : before.Forall₂ (fun p v => s.targetId p = .ok v) ids) (m : String) :
    ∃ t, Same (s.put n (r.extend e.kind id { permissions := ids })) t ∧
      t.find owner = .ok (n, id, e.extend { permissions := ids }) ∧
      s.step m (.givePermissions owner before) = (t, .ok (.references (old ++ ids))) ∧
      ∀ p fault after, s.targetId p = .error fault →
        s.step m (.givePermissions owner (before ++ p :: after)) = (t, .error fault) := by
  obtain ⟨kind, i, r', rfl, rfl, hr', he⟩ := find_eq_ok.mp hfind
  obtain rfl : r = r' := Option.some.inj (hr.symm.trans hr')
  obtain rfl := Registry.kind_of_entity he
  -- the loop over the references, apart from the look-ups before and after it
  obtain ⟨t, hsame, hall, hstop⟩ := givePermissions_eq rfl hold hids hr he
  have hfound : t.find (.registered n e.kind i)
      = .ok (n, i.text, e.extend { permissions := ids }) :=
    (hsame.find_eq _).trans (find_put_extend he _)
  have hsome : e.permissions?.isNone = false := by rw [hold]; rfl
  refine ⟨t, hsame, hfound, ?_, fun p fault after hp => ?_⟩
  · show s.stepPermissions (.registered n e.kind i) before = _
    simp only [stepPermissions, hfind, hsome, hall, Bool.false_eq_true, ↓reduceIte]
    rw [hfound]
    show (t, orUnsuitable (e.extend { permissions := ids }).permissions? >>= _) = _
    rw [Entity.permissions?_extend hold]
    rfl
  · show s.stepPermissions (.registered n e.kind i) (before ++ p :: after) = _
    simp only [stepPermissions, hfind, hsome, hstop p fault after hp, Bool.false_eq_true,
      ↓reduceIte]

/-- A preset that is built into a registry of a session leaves there what its run leaves, on failure
too. -/
theorem step_buildInto {preset : String} {p : Preset} {root : Option String} {r' : Registry}
    {err : Option Error} (hr : s.registry? n = some r) (hp : Preset.ofName preset = .ok p)
    (hrun : r.run (p.plan root) = (r', err)) :
    s.step n (.buildInto preset root)
      = (s.put n r', err.elim (.ok .done) fun e => .error (.error e)) := by
  show s.stepBuildInto n preset root = _
  have hbuild : p.buildInto root r = (r', err) := hrun
  rw [stepBuildInto, registry_eq_ok.mpr hr, hp]
  simp only [hbuild]
  cases err <;> rfl

/-- A step that is not piecemeal leaves the session as it was when it fails. -/
private theorem step_fst_of_error {step : Step} (hwhole : step.isPiecemeal = false) {fault : Fault}
    (h : (s.step n step).2 = .error fault) : (s.step n step).1 = s := by
  have hfails : ∀ {x : Except Fault (Session × Reply)}, (s.whole x).2 = .error fault →
      (s.whole x).1 = s := by
    intro x hx
    cases x with
    | error _ => rfl
    | ok result => simp [whole] at hx
  cases step with
  | createRegistry _ _ => exact hfails h
  | define _ => exact hfails h
  | script _ _ _ => exact hfails h
  | attachGroup _ _ _ => exact hfails h
  | assignRole _ _ => exact hfails h
  | override _ _ _ _ => exact hfails h
  | buildPreset _ _ => exact hfails h
  | givePermissions _ _ => simp [Step.isPiecemeal] at hwhole
  | buildInto _ _ => simp [Step.isPiecemeal] at hwhole
  -- Questions change nothing anyway.
  | _ => rfl

/-! ## All steps -/

/-- What steps change in a session, and when they fail. -/
structure StepsExact (s : Session) : Prop where
  /-- A definition succeeds just when its own parts are valid, its identifier is free in its kind
  and so is its name, if the kind has names; it enters what it describes. -/
  defines : ∀ {n r}, s.registry? n = some r → ∀ d t reply,
    s.step n (.define d) = (t, .ok reply) ↔
      ∃ id e, d.described = .ok (id, e) ∧ id.text ∉ r.keys d.kind ∧
        (d.kind ∈ Kind.named → ∀ f ∈ r.ofKind d.kind, f.name? ≠ e.name?) ∧
        t = s.put n (r.enter id.text e) ∧ reply = .entity e
  /-- A definition that fails tells what is wrong with its own parts, or else that its identifier
  is taken, or else that its name is; it changes nothing. -/
  refuses : ∀ {n r}, s.registry? n = some r → ∀ d t fault,
    s.step n (.define d) = (t, .error fault) ↔
      t = s ∧ ∃ err, fault = .error err ∧ (d.described = .error err ∨
        ∃ id e, d.described = .ok (id, e) ∧
          ((id.text ∈ r.keys d.kind ∧ err = .duplicateId d.kind id) ∨
            (id.text ∉ r.keys d.kind ∧ d.kind ∈ Kind.named ∧
              (∃ f ∈ r.ofKind d.kind, f.name? = e.name?) ∧
              err = .duplicateName d.kind (e.name?.getD ""))))
  /-- The entities of other kinds have no part in this. -/
  confined : ∀ {n r}, s.registry? n = some r → ∀ {t m r'}, registry? t m = some r' → ∀ d,
    r'.registrations d.kind = r.registrations d.kind →
      (t.step m (.define d)).2 = (s.step n (.define d)).2
  /-- What is entered comes at the end of its kind, and nothing else is changed. -/
  enters : ∀ (r : Registry) id e, (r.enter id e).names = r.names ∧
    ∀ kind, (r.enter id e).registrations kind = r.registrations kind ++ kind.among [(id, e)]
  /-- Whatever fails changes nothing, unless it is piecemeal. -/
  keeps : ∀ n step fault, step.isPiecemeal = false → (s.step n step).2 = .error fault →
    (s.step n step).1 = s
  /-- An attachment that succeeds adds one assignment to the list of the role. -/
  attaches : ∀ n role group terms t reply,
    s.step n (.attachGroup role group terms) = (t, .ok reply) ↔
      ∃ m id o r g tm a, s.find role = .ok (m, id, .role (.configured o)) ∧
        s.registry? m = some r ∧ s.targetId group = .ok g ∧ terms = .ok tm ∧
        Registry.assignment g tm = .ok a ∧
        t = s.put m (r.extend .role id { assignments := [a] }) ∧
        reply = .assignments (o.assignments ++ [a])
  /-- An assignment that succeeds adds one role to the list of the account. -/
  assigns : ∀ n account role t reply,
    s.step n (.assignRole account role) = (t, .ok reply) ↔
      ∃ m id a r v, s.find account = .ok (m, id, .account (.configured a)) ∧
        s.registry? m = some r ∧ s.targetId role = .ok v ∧
        t = s.put m (r.extend .account id { roles := [v] }) ∧
        reply = .references (a.roles ++ [v])
  /-- A grant or a denial that succeeds adds one override to the list of the account. -/
  overrides : ∀ n account isGrant permission terms t reply,
    s.step n (.override account isGrant permission terms) = (t, .ok reply) ↔
      ∃ m id a r p tm o, s.find account = .ok (m, id, .account (.configured a)) ∧
        s.registry? m = some r ∧ s.targetName permission = .ok p ∧ terms = .ok tm ∧
        Registry.overrideOf isGrant p tm = .ok o ∧
        t = s.put m (r.extend .account id { overrides := [o] }) ∧
        reply = .overrides (a.overrides ++ [o])
  /-- What is added to the lists of an entity changes nothing else. -/
  continues : ∀ r : Registry, r.Distinct → ∀ kind id e before after x,
    r.registrations kind = before ++ (id, e) :: after →
      (r.extend kind id x).names = r.names ∧
        (r.extend kind id x).registrations kind = before ++ (id, e.extend x) :: after ∧
        ∀ k ≠ kind, (r.extend kind id x).registrations k = r.registrations k
  /-- Permissions that are given together are given up to the first one that is not found: the list
  of the owner is continued with the identifiers of those before it. -/
  gives : ∀ {n r owner id e old}, s.find owner = .ok (n, id, e) → e.permissions? = some old →
    s.registry? n = some r → ∀ {before : List Ref} {ids},
    before.Forall₂ (fun p v => s.targetId p = .ok v) ids → ∀ m,
      ∃ t, Same (s.put n (r.extend e.kind id { permissions := ids })) t ∧
        (∃ f, t.find owner = .ok (n, id, f) ∧ f.permissions? = some (old ++ ids)) ∧
        s.step m (.givePermissions owner before) = (t, .ok (.references (old ++ ids))) ∧
        ∀ p fault after, s.targetId p = .error fault →
          s.step m (.givePermissions owner (before ++ p :: after)) = (t, .error fault)
  /-- A graph is built in a registry up to the first command that fails. -/
  builds : ∀ {n r preset p}, s.registry? n = some r → Preset.ofName preset = .ok p → ∀ root,
    (∀ t, r.run (p.plan root) = (t, none) →
      s.step n (.buildInto preset root) = (s.put n t, .ok .done)) ∧
    ∀ t before c after err, p.plan root = before ++ c :: after → r.run before = (t, none) →
      t.apply c = .error err →
        s.step n (.buildInto preset root) = (s.put n t, .error (.error err))

/-- Steps take effect exactly or leave the session as it was, save for the piecemeal ones. -/
theorem steps_exact (s : Session) : s.StepsExact where
  defines hr _ _ _ := step_define_eq_ok hr
  refuses hr _ _ _ := step_define_eq_error hr
  confined hr _ _ _ ht _ hkind := step_define_congr hr ht hkind
  enters r id e := ⟨r.names_enter id e, r.registrations_enter id e⟩
  keeps _ _ _ hwhole h := step_fst_of_error hwhole h
  attaches _ _ _ _ _ _ := step_attachGroup_eq_ok
  assigns _ _ _ _ _ := step_assignRole_eq_ok
  overrides _ _ _ _ _ _ _ := step_override_eq_ok
  -- a registry continued at one kind has its other kinds as they were
  continues r hr kind id e before after x hsplit := by
    refine ⟨r.names_extend kind id x, hr.registrations_extend hsplit x, fun k hk => ?_⟩
    rw [Registry.registrations_extend]
    refine (List.map_congr_left fun y _ => ?_).trans (List.map_id _)
    simp [hk]
  gives hfind hold hr _ _ hids m := by
    obtain ⟨t, hsame, hfound, hall, hstop⟩ := step_givePermissions hfind hold hr hids m
    exact ⟨t, hsame, ⟨_, hfound, Entity.permissions?_extend hold _⟩, hall, hstop⟩
  builds hr hp root := by
    refine ⟨fun t hrun => step_buildInto hr hp hrun, ?_⟩
    intro t before c after err hsplit hbefore hc
    exact step_buildInto hr hp (Registry.run_eq_error.mpr ⟨before, c, after, hsplit, hbefore, hc⟩)

/-- A session about the small graph. -/
def sampleSession : Session := ⟨⟨"access", "auth"⟩, [("main", Registry.sample)]⟩

/-- A group of a taken name is refused, and its name is not told if its identifier is taken as well;
a role gets the permission in front of one that is not registered. -/
theorem steps_exact_sample :
    sampleSession.step "main" (.define (.group "h" (.ofTable [("name", .text "staff")])))
        = (sampleSession, .error (.error (.duplicateName .group "staff"))) ∧
      sampleSession.step "main" (.define (.group "g" (.ofTable [("name", .text "staff")])))
        = (sampleSession, .error (.error (.duplicateId .group "g"))) ∧
      ∃ t f, sampleSession.step "main" (.givePermissions (.registered "main" .role "r")
          [.registered "main" .permission "p", .registered "main" .permission "gone",
            .registered "main" .permission "p"])
          = (t, .error (.error (.notFound .permission "gone"))) ∧
        t.find (.registered "main" .role "r") = .ok ("main", "r", f) ∧
        f.permissions? = some [.text "p"] := by
  have hr : sampleSession.registry? "main" = some Registry.sample := rfl
  refine ⟨((steps_exact sampleSession).refuses hr _ _ _).mpr ⟨rfl, _, rfl, .inr ?_⟩,
    ((steps_exact sampleSession).refuses hr _ _ _).mpr ⟨rfl, _, rfl, .inr ?_⟩, ?_⟩
  · -- the name is taken under another identifier; the identifier itself is taken
    exact ⟨"h", _, rfl, .inr ⟨by decide +kernel, by decide, by decide +kernel, rfl⟩⟩
  · exact ⟨"g", _, rfl, .inl ⟨by decide +kernel, rfl⟩⟩
  · have hfind : ∃ e, sampleSession.find (.registered "main" .role "r") = .ok ("main", "r", e) ∧
        e.permissions? = some [] := ⟨_, rfl, rfl⟩
    obtain ⟨e, hfind, hold⟩ := hfind
    have hids : List.Forall₂ (fun p v => sampleSession.targetId p = .ok v)
        [.registered "main" .permission "p"] [.text "p"] := .cons rfl .nil
    obtain ⟨t, -, ⟨f, hfound, hlist⟩, -, hstop⟩ :=
      (steps_exact sampleSession).gives hfind hold hr hids "main"
    exact ⟨t, f, hstop _ _ _ rfl, hfound, hlist⟩

end Session

end AccessGraph
