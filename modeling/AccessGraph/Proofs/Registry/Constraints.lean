import AccessGraph.Proofs.Config.Constraints
import AccessGraph.Proofs.Registry.Effects

/-!
# Constraints on a reachable registry

`Entity.Conforms` says that an entity is within the bounds of the tables it is written to, with all
that was attached to it.  What a definition describes conforms, and what a link adds keeps an entity
conforming, so that in every registry that commands lead to all entities conform which do not follow
a script (`Registry.Reachable.conforms`).
-/

namespace AccessGraph

/-! ## Entities -/

/-- A configured entity within the bounds of the tables it is written to.  That a setting has a text
for its value, a role an integer for its rank, an assignment a text for its group and all metadata
texts for its keys is in their types. -/
inductive Entity.Conforms : Entity → Prop
  | setting (s : Setting) : s.key.text ≠ "" → Conforms (.setting (.configured s))
  | permission (p : Permission) : p.config.Conforms → Conforms (.permission (.configured p))
  | group (g : Group) : g.config.Conforms → Conforms (.group (.configured g))
  | role (o : Role) : o.config.Conforms → (∀ a ∈ o.assignments, a.Conforms) →
    Conforms (.role (.configured o))
  | account (a : Account) : a.id.text ≠ "" → a.config.Conforms → (∀ o ∈ a.overrides, o.Conforms) →
    Conforms (.account (.configured a))

/-- Only attachments and overrides are bounded; other references are kept as they are. -/
theorem Entity.Conforms.extend {e : Entity} {x : Additions} (h : e.Conforms)
    (hassignments : ∀ a ∈ x.assignments, a.Conforms)
    (hoverrides : ∀ o ∈ x.overrides, o.Conforms) : (e.extend x).Conforms := by
  cases h with
  | setting s hkey => exact .setting s hkey
  | permission p hp => exact .permission p hp
  | group g hg => exact .group _ hg
  | role o ho has => exact .role _ ho (List.forall_mem_append.mpr ⟨has, hassignments⟩)
  | account a hid ha hos =>
    exact .account _ hid ha (List.forall_mem_append.mpr ⟨hos, hoverrides⟩)

/-- What a definition describes is within its constraints. -/
private theorem Definition.conforms_of_described {d : Definition} {id : Identifier} {e : Entity}
    (h : d.described = .ok (id, e)) : e.Conforms := by
  -- Nothing is attached to a new entity, so that its configuration is all there is to bound.
  cases d with
  | setting key value =>
    obtain ⟨key, hkey, h⟩ := Except.bind_eq_ok.mp h
    split at h
    · obtain ⟨rfl, rfl⟩ := Prod.mk.inj (Except.ok.inj h)
      exact .setting _ (Registry.nonEmptyIdentifier_ne_empty hkey)
    · simp at h
  | permission i config =>
    obtain ⟨c, hc, h⟩ := Except.bind_eq_ok.mp h
    obtain ⟨rfl, rfl⟩ := Prod.mk.inj (Except.ok.inj h)
    exact .permission _ (PermissionConfig.conforms_of_parse (Checked.orInvalid_eq_ok.mp hc))
  | group i config =>
    obtain ⟨c, hc, h⟩ := Except.bind_eq_ok.mp h
    obtain ⟨rfl, rfl⟩ := Prod.mk.inj (Except.ok.inj h)
    exact .group _ (GroupConfig.conforms_of_parse (Checked.orInvalid_eq_ok.mp hc))
  | role i config =>
    obtain ⟨c, hc, h⟩ := Except.bind_eq_ok.mp h
    obtain ⟨rfl, rfl⟩ := Prod.mk.inj (Except.ok.inj h)
    exact .role _ (RoleConfig.conforms_of_parse (Checked.orInvalid_eq_ok.mp hc)) (by simp)
  | account v config =>
    obtain ⟨i, hi, h⟩ := Except.bind_eq_ok.mp h
    obtain ⟨c, hc, h⟩ := Except.bind_eq_ok.mp h
    obtain ⟨rfl, rfl⟩ := Prod.mk.inj (Except.ok.inj h)
    exact .account _ (Registry.nonEmptyIdentifier_ne_empty hi)
      (AccountConfig.conforms_of_parse (Checked.orInvalid_eq_ok.mp hc)) (by simp)

/-- What a link adds is within its constraints. -/
private theorem Link.conforms_of_additions {l : Link} {x : Additions} (h : l.additions = .ok x) :
    (∀ a ∈ x.assignments, a.Conforms) ∧ ∀ o ∈ x.overrides, o.Conforms := by
  cases l with
  | roleGroup id group terms =>
    obtain ⟨a, ha, rfl⟩ := Except.map_eq_ok.mp h
    have hconforms := Assignment.conforms_of_parse (Checked.orInvalid_eq_ok.mp ha)
    exact ⟨by simpa using hconforms, by simp⟩
  | override id isGrant permission terms =>
    obtain ⟨o, ho, rfl⟩ := Except.map_eq_ok.mp h
    have hconforms := Override.conforms_of_parse (Checked.orInvalid_eq_ok.mp ho)
    exact ⟨by simp, by simpa using hconforms⟩
  -- The other links add values that are not looked at.
  | _ =>
    obtain rfl := Except.ok.inj h
    exact ⟨by simp, by simp⟩

namespace Registry

variable {r t : Registry}

/-! ## Steps -/

/-- All entities conform that do not follow a script. -/
def Conforms (r : Registry) : Prop :=
  ∀ kind, ∀ x ∈ r.registrations kind, x.2.isScripted = false → x.2.Conforms

/-- Each configured entity of a conforming registry is within its constraints. -/
theorem Conforms.entity (h : r.Conforms) {e : Entity} (he : e ∈ r.entities)
    (hconfigured : e.isScripted = false) : e.Conforms := by
  obtain ⟨kind, -, he⟩ := List.mem_flatMap.mp he
  rw [ofKind_eq] at he
  obtain ⟨x, hx, rfl⟩ := List.mem_map.mp he
  exact h kind x hx hconfigured

/-- An empty registry has nothing to be out of its constraints. -/
theorem conforms_empty (names : Names) : (empty names).Conforms := by
  intro kind
  rw [registrations_empty]
  exact fun _ hx => absurd hx List.not_mem_nil

/-- An entity within its constraints can be entered. -/
theorem Conforms.enter (h : r.Conforms) (id : String) {e : Entity}
    (he : e.isScripted = false → e.Conforms) : (r.enter id e).Conforms := by
  intro kind x hx
  rw [registrations_enter, List.mem_append] at hx
  rcases hx with hx | hx
  · exact h kind x hx
  · obtain rfl := List.mem_singleton.mp (List.mem_filter.mp hx).1
    exact he

/-- Assignments and overrides within their constraints can be added. -/
theorem Conforms.extend (h : r.Conforms) (kind : Kind) (id : String) {x : Additions}
    (hassignments : ∀ a ∈ x.assignments, a.Conforms)
    (hoverrides : ∀ o ∈ x.overrides, o.Conforms) : (r.extend kind id x).Conforms := by
  intro k y hy hconfigured
  rw [registrations_extend] at hy
  obtain ⟨z, hz, rfl⟩ := List.mem_map.mp hy
  simp only at hconfigured ⊢
  split at hconfigured
  · next howner =>
    -- The entity was configured before, since additions keep it so.
    rw [(Entity.later_extend z.2 x).isScripted_eq] at hconfigured
    rw [if_pos howner]
    exact (h k z hz hconfigured).extend hassignments hoverrides
  · next hother =>
    rw [if_neg hother]
    exact h k z hz hconfigured

private theorem isScripted_ofScript (kind : Kind) (s : Scripted) :
    (Entity.ofScript kind s).isScripted = true := by cases kind <;> rfl

/-- A command that succeeds keeps a registry within its constraints. -/
theorem Conforms.apply (h : r.Conforms) {c : Command} (hc : r.apply c = .ok t) : t.Conforms := by
  cases c with
  | define d =>
    rw [Registry.apply, define_eq] at hc
    obtain ⟨x, hd, hregister⟩ := Except.bind_eq_ok.mp hc
    obtain ⟨-, -, rfl⟩ := register_eq_ok.mp hregister
    exact h.enter _ fun _ => Definition.conforms_of_described hd
  | script kind id s =>
    rw [Registry.apply, script_eq] at hc
    obtain ⟨-, -, rfl⟩ := register_eq_ok.mp hc
    refine h.enter _ fun hconfigured => ?_
    -- What is scripted has no constraints.
    rw [isScripted_ofScript] at hconfigured
    exact Bool.noConfusion hconfigured
  | link l =>
    rw [Registry.apply, link_eq] at hc
    split at hc
    · obtain ⟨x, hx, rfl⟩ := Except.map_eq_ok.mp hc
      -- What a link adds was read, so it is within its constraints.
      obtain ⟨hassignments, hoverrides⟩ := Link.conforms_of_additions hx
      exact h.extend _ _ hassignments hoverrides
    · simp at hc

/-! ## Reachability -/

/-- The registries that commands of any sort lead to from one without entities. -/
inductive Reachable : Registry → Prop
  | empty (names : Names) : Reachable (empty names)
  | apply {r t : Registry} {c : Command} : Reachable r → r.apply c = .ok t → Reachable t

namespace Reachable

theorem create {defaults : Names} {schema auth : Option String}
    (h : create defaults schema auth = .ok r) : r.Reachable := by
  obtain ⟨n, -, rfl⟩ := Except.map_eq_ok.mp h
  exact .empty n

/-- Commands up to the first that fails lead to a reachable registry. -/
theorem run (h : r.Reachable) (cs : List Command) : (r.run cs).1.Reachable := by
  induction cs generalizing r with
  | nil => exact h
  | cons c cs ih =>
    rw [Registry.run]
    split
    · next t ht => exact ih (.apply h ht)
    · exact h

/-- Whatever registry is reached is within its constraints. -/
theorem conforms (h : r.Reachable) : r.Conforms := by
  induction h with
  | empty names => exact conforms_empty names
  | apply _ hc ih => exact ih.apply hc

end Reachable

end Registry

end AccessGraph
