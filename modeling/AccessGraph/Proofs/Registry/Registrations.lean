import AccessGraph.Proofs.Entity.Fidelity
import AccessGraph.Proofs.Lists

/-!
# The registrations of a registry

A registration is an entity with the identifier under which it stands.  `Registry.registrations`
lists those of a kind in the order in which they were made; look-ups look there
(`Registry.entity_eq`), and `Registry.Distinct` says that they tell the entities apart.

`Entity.Later` relates an entity to itself at a later time, when references may have been added to
it, and `Registration.Kept` does so with the identifier, which stays.
-/

namespace AccessGraph

/-! ## Entities that grow -/

namespace Entity

/-- Whether the entity follows a script. -/
def isScripted : Entity → Bool
  | .setting e => e.elim (fun _ => false) fun _ => true
  | .permission e => e.elim (fun _ => false) fun _ => true
  | .group e => e.elim (fun _ => false) fun _ => true
  | .role e => e.elim (fun _ => false) fun _ => true
  | .account e => e.elim (fun _ => false) fun _ => true

/-- The entity of a kind that follows a script. -/
def ofScript (kind : Kind) (s : Scripted) : Entity :=
  match kind with
  | .setting => .setting (.scripted s)
  | .permission => .permission (.scripted s)
  | .group => .group (.scripted s)
  | .role => .role (.scripted s)
  | .account => .account (.scripted s)

/-- The second entity is the first at a later time: its references may have been continued, all
else is as it was. -/
inductive Later : Entity → Entity → Prop
  | refl (e : Entity) : Later e e
  | group (g : Group) (permissions : List Value) :
    Later (.group (.configured g))
      (.group (.configured { g with permissions := g.permissions ++ permissions }))
  | role (o : Role) (permissions : List Value) (assignments : List Assignment) :
    Later (.role (.configured o))
      (.role (.configured { o with
        permissions := o.permissions ++ permissions
        assignments := o.assignments ++ assignments }))
  | account (a : Account) (roles : List Value) (overrides : List Override) :
    Later (.account (.configured a))
      (.account (.configured { a with
        roles := a.roles ++ roles
        overrides := a.overrides ++ overrides }))

namespace Later

variable {d e f : Entity}

theorem trans (h : Later d e) (h' : Later e f) : Later d f := by
  -- Both steps add to the same lists, and what the second adds comes behind.
  cases h with
  | refl => exact h'
  | group g ps =>
    cases h' with
    | refl => exact .group g ps
    | group _ qs => simpa only [List.append_assoc] using Later.group g (ps ++ qs)
  | role o ps as =>
    cases h' with
    | refl => exact .role o ps as
    | role _ qs bs => simpa only [List.append_assoc] using Later.role o (ps ++ qs) (as ++ bs)
  | account a rs os =>
    cases h' with
    | refl => exact .account a rs os
    | account _ ss ps => simpa only [List.append_assoc] using Later.account a (rs ++ ss) (os ++ ps)

theorem identifier_eq (h : Later d e) : e.identifier = d.identifier := by cases h <;> rfl

theorem name?_eq (h : Later d e) : e.name? = d.name? := by cases h <;> rfl

theorem isScripted_eq (h : Later d e) : e.isScripted = d.isScripted := by cases h <;> rfl

end Later

end Entity

/-- An entity with the identifier under which it is registered. -/
abbrev Registration := String × Entity

/-- The second registration is the first at a later time. -/
def Registration.Kept (x y : Registration) : Prop := y.1 = x.1 ∧ x.2.Later y.2

theorem Registration.Kept.refl (x : Registration) : x.Kept x := ⟨rfl, .refl x.2⟩

theorem Registration.Kept.trans {x y z : Registration} (h : x.Kept y) (h' : y.Kept z) :
    x.Kept z :=
  ⟨h'.1.trans h.1, h.2.trans h'.2⟩

/-- The registrations of a kind among others. -/
def Kind.among (kind : Kind) (xs : List Registration) : List Registration :=
  xs.filter fun x => x.2.kind == kind

/-- The identifiers of a kind among registrations. -/
theorem Kind.mem_map_among {kind : Kind} {xs : List Registration} {k : String} :
    k ∈ (kind.among xs).map Prod.fst ↔ ∃ x ∈ xs, x.2.kind = kind ∧ x.1 = k := by
  simp only [among, List.mem_map, List.mem_filter, beq_iff_eq, and_assoc]

/-! ## Registrations kept one by one -/

section Kept

open Registration (Kept)

variable {xs ys zs : List Registration}

theorem forall₂_kept_refl (xs : List Registration) : xs.Forall₂ Kept xs :=
  List.forall₂_same.mpr fun x _ => .refl x

theorem forall₂_kept_trans (h : xs.Forall₂ Kept ys) (h' : ys.Forall₂ Kept zs) :
    xs.Forall₂ Kept zs := by
  induction h generalizing zs with
  | nil => exact h'
  | cons hx _ ih =>
    cases h' with
    | cons hy h' => exact .cons (hx.trans hy) (ih h')

/-- What is registered later was there before. -/
theorem kept_of_mem (h : xs.Forall₂ Kept ys) {y : Registration} (hy : y ∈ ys) :
    ∃ x ∈ xs, Kept x y := by
  have hflip : ys.Forall₂ (flip Kept) xs := List.Forall₂.flip h
  exact exists_of_forall₂ hflip hy

/-- What is found under an identifier is found there later. -/
theorem lookup_of_kept (h : xs.Forall₂ Kept ys) {k : String} {e : Entity}
    (he : xs.lookup k = some e) : ∃ f, ys.lookup k = some f ∧ e.Later f := by
  have hfound : Option.Rel Entity.Later (xs.lookup k) (ys.lookup k) :=
    lookup_of_forall₂ Function.injective_id h k
  rw [he] at hfound
  generalize ys.lookup k = found at hfound ⊢
  cases hfound with
  | some hlater => exact ⟨_, rfl, hlater⟩

end Kept

/-! ## The registrations of a registry -/

/-- The kinds whose entities are found by their names. -/
def Kind.named : List Kind := [.permission, .group, .role]

/-- The registrations of a store. -/
def Store.registrations {α : Type} (s : Store α) (wrap : α → Entity) : List Registration :=
  s.entries.map fun e => (e.1, wrap e.2)

/-- What is pushed is the last registration. -/
theorem Store.registrations_push {α : Type} (s : Store α) (wrap : α → Entity) (id : String)
    (a : α) : (s.push id a).registrations wrap = s.registrations wrap ++ [(id, wrap a)] :=
  List.map_append

/-- The identifiers of the registrations are the keys of the store. -/
theorem Store.map_fst_registrations {α : Type} (s : Store α) (wrap : α → Entity) :
    (s.registrations wrap).map Prod.fst = s.keys := by
  simp [registrations, keys]

/-- The entities of the registrations are the members of the store. -/
theorem Store.map_snd_registrations {α : Type} (s : Store α) (wrap : α → Entity) :
    (s.registrations wrap).map Prod.snd = s.toList.map wrap := by
  simp [registrations, toList]

/-- The registrations are looked up as the store is. -/
private theorem Store.lookup_registrations {α : Type} (s : Store α) (wrap : α → Entity)
    (k : String) :
    (s.registrations wrap).lookup k = (s.get? k).map wrap := by
  obtain ⟨es⟩ := s
  induction es with
  | nil => rfl
  | cons e es ih =>
    obtain ⟨key, a⟩ := e
    simp only [registrations, get?, List.map_cons, List.lookup_cons] at ih ⊢
    rw [ih]
    cases k == key <;> rfl

/-- A change of one entity that only continues its references keeps the registrations; a script
has none to continue. -/
theorem Store.kept_modify {α : Type} (s : Store (Entry α)) {wrap : Entry α → Entity} (k : String)
    {f : α → α} (hf : ∀ a, (wrap (.configured a)).Later (wrap (.configured (f a)))) :
    (s.registrations wrap).Forall₂ Registration.Kept
      ((s.modify k (Entry.map f)).registrations wrap) := by
  -- A script takes no part in a change.
  have hlater : ∀ e : Entry α, (wrap e).Later (wrap (e.map f)) := by
    intro e
    cases e with
    | configured a => exact hf a
    | scripted s => exact .refl _
  simp only [registrations, modify, List.map_map, List.forall₂_map_left_iff,
    List.forall₂_map_right_iff, List.forall₂_same]
  intro e _
  refine ⟨rfl, ?_⟩
  by_cases hk : e.1 = k
  · simpa [hk] using hlater e.2
  · simpa [hk] using Entity.Later.refl (wrap e.2)

namespace Registry

variable {r : Registry}

/-- The registrations of a kind, in the order in which they were made. -/
def registrations (r : Registry) : Kind → List Registration
  | .setting => r.settings.registrations .setting
  | .permission => r.permissions.registrations .permission
  | .group => r.groups.registrations .group
  | .role => r.roles.registrations .role
  | .account => r.accounts.registrations .account

theorem registrations_empty (names : Names) (kind : Kind) :
    (empty names).registrations kind = [] := by cases kind <;> rfl

/-- The identifiers under which the entities of a kind are registered. -/
def keys (r : Registry) (kind : Kind) : List String := (r.registrations kind).map Prod.fst

theorem keys_empty (names : Names) (kind : Kind) : (empty names).keys kind = [] := by
  cases kind <;> rfl

/-- The entities of a kind are those of its registrations. -/
theorem ofKind_eq (r : Registry) (kind : Kind) :
    r.ofKind kind = (r.registrations kind).map Prod.snd := by
  cases kind <;> exact (Store.map_snd_registrations _ _).symm

/-- An entity is found in its store as among its registrations. -/
private theorem find_map_eq {α : Type} (s : Store α) (wrap : α → Entity) (kind : Kind)
    (id : Identifier) :
    (find s kind id).map wrap
      = ((s.registrations wrap).lookup id.text).elim (.error (.notFound kind id)) .ok := by
  rw [Store.lookup_registrations, find]
  cases s.get? id.text <;> rfl

/-- An entity is looked for among the registrations of the kind, and nothing else can go wrong than
that there is none. -/
theorem entity_eq (r : Registry) (kind : Kind) (id : Identifier) :
    r.entity kind id
      = ((r.registrations kind).lookup id.text).elim (.error (.notFound kind id)) .ok := by
  cases kind <;> exact find_map_eq _ _ _ id

/-- An entity is not found just when nothing is registered under the identifier. -/
theorem entity_eq_error_iff (r : Registry) (kind : Kind) (id : Identifier) :
    r.entity kind id = .error (.notFound kind id) ↔ id.text ∉ r.keys kind := by
  have hkeys : (r.registrations kind).lookup id.text = none ↔ id.text ∉ r.keys kind := by
    simp only [List.lookup_eq_none_iff, keys, List.mem_map, not_exists, not_and, bne_iff_ne]
    exact ⟨fun h x hx heq => h x hx heq.symm, fun h x hx heq => h x hx heq.symm⟩
  rw [← hkeys, entity_eq]
  cases (r.registrations kind).lookup id.text <;> simp

/-! ## Distinct identifiers and names -/

/-- Identifiers are distinct within each kind, names within the kinds whose entities are found by
them; and entities that are defined stand under their own identifiers. -/
structure Distinct (r : Registry) : Prop where
  keys : ∀ kind, (r.keys kind).Nodup
  names : ∀ kind ∈ Kind.named, ((r.ofKind kind).map Entity.name?).Nodup
  own : ∀ kind, ∀ x ∈ r.registrations kind, x.2.isScripted = false → x.1 = x.2.identifier.text

theorem distinct_empty (names : Names) : (empty names).Distinct := by
  refine ⟨fun kind => ?_, fun kind _ => ?_, fun kind => ?_⟩
  · rw [keys_empty]
    exact List.nodup_nil
  · rw [ofKind_eq, registrations_empty]
    exact List.nodup_nil
  · rw [registrations_empty]
    exact fun _ hx => absurd hx List.not_mem_nil

/-- Where identifiers are distinct, every registered entity is found under its own. -/
theorem Distinct.entity_of_mem (h : r.Distinct) {kind : Kind} {x : Registration}
    (hx : x ∈ r.registrations kind) {id : Identifier} (hid : id.text = x.1) :
    r.entity kind id = .ok x.2 := by
  obtain ⟨before, after, hsplit⟩ := List.append_of_mem hx
  -- No other registration in front stands under the identifier.
  have hbefore : ∀ y ∈ before, (x.1 != y.1) = true := by
    intro y hy
    have hkeys := h.keys kind
    rw [Registry.keys, hsplit, List.map_append, List.nodup_append] at hkeys
    have hne := hkeys.2.2 y.1 (List.mem_map_of_mem hy) x.1 (by simp)
    simpa using hne.symm
  rw [entity_eq, hid, List.lookup_eq_some_iff.mpr ⟨before, after, hsplit, hbefore⟩]
  rfl

end Registry

end AccessGraph
