import AccessGraph.Proofs.Registry.Effects

/-!
# Schema names and identifiers of accounts

Which commands succeed does not depend on the names of the schemas, nor, as long as they stay
distinct, on the identifiers that the accounts bear.  A run under other names leads to the same
registry under these names (`Registry.run_withNames`), and a run for other accounts leads to the
same registry with these accounts (`Registry.run_readdress`).
-/

namespace AccessGraph

namespace Registry

variable {r t : Registry}

/-! ## Schema names -/

/-- The registry under other names of the schemas. -/
def withNames (r : Registry) (names : Names) : Registry := { r with names := names }

/-- Other schema names change no registration. -/
private theorem registrations_withNames (r : Registry) (names : Names) (kind : Kind) :
    (r.withNames names).registrations kind = r.registrations kind := by cases kind <;> rfl

private theorem keys_withNames (r : Registry) (names : Names) (kind : Kind) :
    (r.withNames names).keys kind = r.keys kind := by
  rw [keys, registrations_withNames, keys]

/-- Registering does not depend on the schema names. -/
theorem register_withNames (r : Registry) (names : Names) (id : Identifier) (e : Entity) :
    (r.withNames names).register id e = (r.register id e).map fun t => t.withNames names := by
  have hofKind : (r.withNames names).ofKind e.kind = r.ofKind e.kind := by
    rw [ofKind_eq, registrations_withNames, ofKind_eq]
  have henter : (r.withNames names).enter id.text e = (r.enter id.text e).withNames names := by
    cases e <;> rfl
  rw [register, register, keys_withNames, hofKind, henter]
  split
  · rfl
  · split <;> rfl

/-- A command does the same under other names. -/
theorem apply_withNames (r : Registry) (names : Names) (c : Command) :
    (r.withNames names).apply c = (r.apply c).map fun t => t.withNames names := by
  cases c with
  | define d =>
    rw [apply, apply, define_eq, define_eq]
    cases d.described with
    | error e => rfl
    | ok x => exact register_withNames r names x.1 x.2
  | script kind id s =>
    rw [apply, apply, script_eq, script_eq]
    exact register_withNames r names id _
  | link l =>
    -- Additions and schema names are different parts of a registry.
    have hextend : ∀ x, (r.withNames names).extend l.owner.1 l.owner.2 x
        = (r.extend l.owner.1 l.owner.2 x).withNames names := by
      intro x
      cases l.owner.1 <;> rfl
    rw [apply, apply, link_eq, link_eq, keys_withNames]
    split
    · cases l.additions with
      | error e => rfl
      | ok x => exact congrArg Except.ok (hextend x)
    · rfl

/-- A run does not depend on the schema names. -/
theorem run_withNames (r : Registry) (names : Names) (cs : List Command) :
    (r.withNames names).run cs = ((r.run cs).1.withNames names, (r.run cs).2) := by
  induction cs generalizing r with
  | nil => rfl
  | cons c cs ih =>
    rw [run, run, apply_withNames]
    cases r.apply c with
    | error e => rfl
    | ok t => exact ih t

end Registry

/-! ## Identifiers of accounts -/

section

variable (σ : String → String)

/-- The account under a new identifier. -/
def Account.readdress (a : Account) : Account := { a with id := σ a.id.text }

/-- The entity under a new identifier if it is an account. -/
def Entity.readdress : Entity → Entity
  | .account e => .account (e.map (Account.readdress σ))
  | e => e

/-- The new identifier of an entity of a kind.  Only accounts get one. -/
def Kind.readdress (kind : Kind) (id : String) : String := if kind = .account then σ id else id

/-- The second command is the first for accounts with new identifiers. -/
inductive Command.Readdresses : Command → Command → Prop
  | define {d : Definition} : d.kind ≠ .account → Readdresses (.define d) (.define d)
  | account (id : String) (config : Value) :
    Readdresses (.define (.account (.text id) config)) (.define (.account (.text (σ id)) config))
  | link {l : Link} : l.owner.1 ≠ .account → Readdresses (.link l) (.link l)
  | accountRole (id : String) (role : Value) :
    Readdresses (.link (.accountRole id role)) (.link (.accountRole (σ id) role))

/-- The registry with new identifiers of the accounts. -/
def Registry.readdress (r : Registry) : Registry :=
  { r with accounts := ⟨r.accounts.entries.map fun x => (σ x.1, x.2.map (Account.readdress σ))⟩ }

/-- An injective change of account identifiers is one of the identifiers of every kind. -/
private theorem Kind.readdress_injective {σ : String → String} (hσ : Function.Injective σ)
    (kind : Kind) :
    Function.Injective (kind.readdress σ) := by
  unfold Kind.readdress
  split
  · exact hσ
  · exact Function.injective_id

theorem Entity.kind_readdress (e : Entity) : (e.readdress σ).kind = e.kind := by
  cases e <;> rfl

private theorem Entity.name?_readdress (e : Entity) : (e.readdress σ).name? = e.name? := by
  rcases e with e | e | e | e | e <;> cases e <;> rfl

/-- Only accounts change. -/
private theorem Entity.readdress_of_ne {e : Entity} (h : e.kind ≠ .account) :
    e.readdress σ = e := by
  cases e with
  | account e => exact absurd rfl h
  | _ => rfl

/-- Additions are made alike before and after a change of identifiers. -/
private theorem Entity.readdress_extend (e : Entity) (x : Additions) :
    (e.extend x).readdress σ = (e.readdress σ).extend x := by
  rcases e with e | e | e | e | e <;> cases e <;> rfl

end

namespace Registry

variable {σ : String → String} {r t : Registry}

/-- Each registration under its new identifier. -/
theorem registrations_readdress (r : Registry) (σ : String → String) (kind : Kind) :
    (r.readdress σ).registrations kind
      = (r.registrations kind).map fun x => (kind.readdress σ x.1, x.2.readdress σ) := by
  -- The stores of all other kinds are left alone, and so are their identifiers.
  have hsame : ∀ {α : Type} (s : Store α) (wrap : α → Entity), (∀ a, (wrap a).kind = kind) →
      kind ≠ .account → s.registrations wrap
        = (s.registrations wrap).map fun x => (kind.readdress σ x.1, x.2.readdress σ) := by
    intro α s wrap hwrap hkind
    refine (Store.map_registrations_self s wrap _ fun id a => ?_).symm
    rw [Kind.readdress, if_neg hkind, Entity.readdress_of_ne σ (hwrap a ▸ hkind)]
  cases kind with
  | setting => exact hsame r.settings .setting (fun _ => rfl) (by decide)
  | permission => exact hsame r.permissions .permission (fun _ => rfl) (by decide)
  | group => exact hsame r.groups .group (fun _ => rfl) (by decide)
  | role => exact hsame r.roles .role (fun _ => rfl) (by decide)
  | account =>
    simp only [registrations, Store.registrations, readdress, List.map_map]
    exact List.map_congr_left fun x _ => rfl

private theorem keys_readdress (r : Registry) (σ : String → String) (kind : Kind) :
    (r.readdress σ).keys kind = (r.keys kind).map (kind.readdress σ) := by
  rw [keys, registrations_readdress, keys, List.map_map, List.map_map]
  rfl

theorem ofKind_readdress (r : Registry) (σ : String → String) (kind : Kind) :
    (r.readdress σ).ofKind kind = (r.ofKind kind).map (Entity.readdress σ) := by
  rw [ofKind_eq, registrations_readdress, ofKind_eq, List.map_map, List.map_map]
  rfl

theorem names_readdress (r : Registry) (σ : String → String) :
    (r.readdress σ).names = r.names := rfl

/-- An entity is entered alike before and after a change of identifiers. -/
theorem readdress_enter (r : Registry) (σ : String → String) (id : String) (e : Entity) :
    (r.enter id e).readdress σ = (r.readdress σ).enter (e.kind.readdress σ id) (e.readdress σ) := by
  refine ext_registrations (by simp only [names_enter, names_readdress]) fun kind => ?_
  rw [registrations_readdress, registrations_enter, registrations_enter, registrations_readdress,
    List.map_append]
  by_cases hkind : e.kind = kind
  · simp [Kind.among, hkind, Entity.kind_readdress]
  · simp [Kind.among, hkind, Entity.kind_readdress]

section

variable (hσ : Function.Injective σ)

include hσ

/-- An account is found under its new identifier. -/
theorem account_readdress {id : String} {e : Entry Account} (h : r.account id = .ok e) :
    (r.readdress σ).account (σ id) = .ok (e.map (Account.readdress σ)) := by
  let R : Entry Account → Entry Account → Prop := fun a b => b = a.map (Account.readdress σ)
  have hentries : r.accounts.entries.Forall₂ (fun x y => y.1 = σ x.1 ∧ R x.2 y.2)
      (r.readdress σ).accounts.entries := by
    rw [readdress, List.forall₂_map_right_iff, List.forall₂_same]
    exact fun x _ => ⟨rfl, rfl⟩
  -- As no two identifiers become one, the account is found under its new one.
  have hfound := lookup_of_forall₂ hσ hentries id
  rw [account, find, Store.get?] at h ⊢
  simp only [Identifier.text] at h ⊢
  cases hold : r.accounts.entries.lookup id with
  | none => simp [hold] at h
  | some a =>
    rw [hold] at h hfound
    obtain rfl := Except.ok.inj h
    generalize (r.readdress σ).accounts.entries.lookup (σ id) = found at hfound ⊢
    cases hfound with
    | some hb => rw [hb]

/-- Additions are made alike before and after a change of identifiers, to the same entity. -/
theorem readdress_extend (r : Registry) (kind : Kind) (id : String) (x : Additions) :
    (r.extend kind id x).readdress σ
      = (r.readdress σ).extend kind (kind.readdress σ id) x := by
  refine ext_registrations (by simp only [names_extend, names_readdress]) fun k => ?_
  rw [registrations_readdress, registrations_extend, registrations_extend, registrations_readdress,
    List.map_map, List.map_map]
  refine List.map_congr_left fun y _ => ?_
  -- The same entity is extended, as new identifiers are equal only where the old ones are.
  have hiff : k = kind ∧ k.readdress σ y.1 = kind.readdress σ id ↔ k = kind ∧ y.1 = id := by
    refine and_congr_right fun hk => ?_
    rw [hk, (Kind.readdress_injective hσ kind).eq_iff]
  simp only [Function.comp_apply, hiff]
  split
  · rw [Entity.readdress_extend]
  · rfl

/-- A new identifier is taken just if the old one is, as no two become one. -/
private theorem mem_keys_readdress {kind : Kind} {id : String} :
    kind.readdress σ id ∈ (r.readdress σ).keys kind ↔ id ∈ r.keys kind := by
  rw [keys_readdress, List.mem_map_of_injective (Kind.readdress_injective hσ kind)]

/-- What is registered can be registered under a new identifier where the others have new ones. -/
theorem register_readdress {id id' : Identifier} {e : Entity}
    (hid : id'.text = e.kind.readdress σ id.text) (h : r.register id e = .ok t) :
    (r.readdress σ).register id' (e.readdress σ) = .ok (t.readdress σ) := by
  obtain ⟨hfree, hfresh, rfl⟩ := register_eq_ok.mp h
  refine register_eq_ok.mpr ⟨?_, fun hnamed f hf => ?_, ?_⟩
  · -- The new identifier is free, as the old one was.
    rw [Entity.kind_readdress, hid, mem_keys_readdress hσ]
    exact hfree
  · -- Names stay, so none is taken that was not.
    rw [Entity.kind_readdress] at hnamed hf
    rw [ofKind_readdress] at hf
    obtain ⟨f, hmem, rfl⟩ := List.mem_map.mp hf
    rw [Entity.name?_readdress, Entity.name?_readdress]
    exact hfresh hnamed f hmem
  · rw [hid, readdress_enter]

/-- A command that succeeds does so for accounts with new identifiers as well.  Only the empty text
has to stay, which is no identifier of an account. -/
theorem apply_readdress (hempty : σ "" = "") {c c' : Command} (hc : c.Readdresses σ c')
    (h : r.apply c = .ok t) : (r.readdress σ).apply c' = .ok (t.readdress σ) := by
  cases hc with
  | define hkind =>
    rw [apply, define_eq] at h ⊢
    obtain ⟨⟨id, e⟩, hx, h⟩ := Except.bind_eq_ok.mp h
    have he : e.kind ≠ .account := (Definition.of_described hx).2.1 ▸ hkind
    rw [hx]
    have hid : id.text = e.kind.readdress σ id.text := by rw [Kind.readdress, if_neg he]
    have hregister := register_readdress hσ hid h
    rw [Entity.readdress_of_ne σ he] at hregister
    exact hregister
  | account id config =>
    rw [apply, define_eq] at h ⊢
    obtain ⟨x, hx, h⟩ := Except.bind_eq_ok.mp h
    obtain ⟨i, hi, hx⟩ := Except.bind_eq_ok.mp hx
    obtain ⟨c, hc, hx⟩ := Except.bind_eq_ok.mp hx
    obtain rfl := Except.ok.inj hx
    have hi : (if id.isEmpty then Except.error Error.accountId else .ok (id : Identifier))
        = .ok i := hi
    split at hi
    · simp at hi
    · next hne =>
      obtain rfl := Except.ok.inj hi
      -- An identifier must not be empty, and only the empty text gets the empty text.
      have hne' : (σ id).isEmpty = false := by
        rw [Bool.eq_false_iff]
        intro heq
        have hsame : σ id = σ "" := by
          rw [hempty]
          exact String.isEmpty_iff.mp heq
        exact hne (String.isEmpty_iff.mpr (hσ hsame))
      have hdescribed : Definition.described (.account (.text (σ id)) config)
          = .ok (((σ id : String) : Identifier),
            .account (.configured ⟨((σ id : String) : Identifier), c, [], []⟩)) := by
        simp [Definition.described, nonEmptyIdentifier, Identifier.ofValue?, Identifier.text, hne',
          hc, bind, Except.bind, pure, Except.pure]
      rw [hdescribed]
      have hid : ((σ id : String) : Identifier).text = Kind.account.readdress σ id := rfl
      exact register_readdress hσ hid h
  | @link l hkind =>
    rw [apply, link_eq] at h ⊢
    have howner : l.owner.1.readdress σ l.owner.2 = l.owner.2 := if_neg hkind
    split at h
    · next hmem =>
      obtain ⟨x, hx, rfl⟩ := Except.map_eq_ok.mp h
      rw [if_pos (howner ▸ (mem_keys_readdress hσ).mpr hmem), hx, readdress_extend hσ, howner]
      rfl
    · simp at h
  | accountRole id role =>
    rw [apply, link_eq] at h ⊢
    split at h
    · next hmem =>
      obtain ⟨x, hx, rfl⟩ := Except.map_eq_ok.mp h
      have hmem' : Kind.account.readdress σ id ∈ (r.readdress σ).keys .account :=
        (mem_keys_readdress hσ).mpr hmem
      obtain rfl := Except.ok.inj hx
      rw [Link.owner]
      refine (if_pos hmem').trans ?_
      exact congrArg Except.ok (readdress_extend hσ r .account id _).symm
    · simp at h

/-- A run that succeeds leads to the same registry for accounts with new identifiers. -/
theorem run_readdress (hempty : σ "" = "") {cs ds : List Command}
    (hcs : cs.Forall₂ (Command.Readdresses σ) ds) (h : r.run cs = (t, none)) :
    (r.readdress σ).run ds = (t.readdress σ, none) := by
  -- On the commands side by side: the registry in between is that of the one run readdressed.
  induction hcs generalizing r with
  | nil =>
    obtain ⟨rfl, -⟩ := Prod.mk.inj h
    rfl
  | @cons c d cs ds hc _ ih =>
    rw [run] at h ⊢
    cases happly : r.apply c with
    | error e => simp [happly] at h
    | ok s =>
      rw [happly] at h
      rw [apply_readdress hσ hempty hc happly]
      exact ih h

end

end Registry

end AccessGraph
