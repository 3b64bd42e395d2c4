import AccessGraph.Proofs.Compilation.Statements
import AccessGraph.Proofs.Compilation.Tasks
import AccessGraph.Proofs.Registry.Renaming

/-!
# Compilation under new identifiers

Identifiers wire entities together and are written nowhere, except for those of settings and
accounts.  A registry and the same registry with new identifiers have the same tasks
(`Renaming.Relates.tasks`), and a task leaves the same statements in both; where a reference is
skipped in one it is skipped in the other, and the diagnostics differ in identifiers only.

So a run that is replayed under new identifiers compiles to the same statements, or fails for the
same reason (`Registry.compile_renamed`).
-/

namespace AccessGraph

/-- What is gathered from related lists by steps that agree. -/
private theorem gather_agree {ε δ α β γ η : Type} {E : ε → δ → Prop} {R : α → β → Prop}
    {S : γ → η → Prop}
    {f : α → Except ε (List γ)} {g : β → Except δ (List η)} {as : List α} {bs : List β}
    (h : as.Forall₂ R bs) (hfg : ∀ a b, R a b → Except.Agree E (List.Forall₂ S) (f a) (g b)) :
    Except.Agree E (List.Forall₂ S) (gather f as) (gather g bs) := by
  -- The first step that fails ends both, so that the failures agree as well.
  induction h with
  | nil => exact .ok .nil
  | @cons a b as bs hab _ ih =>
    have hone := hfg a b hab
    rw [gather, gather]
    generalize f a = x at hone ⊢
    generalize g b = y at hone ⊢
    cases hone with
    | error he => exact .error he
    | ok hxs => exact ih.map fun _ _ hys => List.rel_append hxs hys

namespace Renaming

variable (ρ : Renaming)

/-- The second visit is the first with new identifiers. -/
structure Revisits (v w : Visit) : Prop where
  relation : w.relation = v.relation
  kind : v.owner.kind = v.relation.ownerKind
  owner : ρ.Renames v.owner w.owner
  target : ρ.Captures v.relation.targetKind v.target w.target

/-- The second task is the first with new identifiers. -/
inductive Redoes : Task → Task → Prop
  | marker (p : Phase) : Redoes (.marker p) (.marker p)
  | row {e f : Entity} : ρ.Renames e f → Redoes (.row e) (.row f)
  | reference {v w : Visit} : ρ.Revisits v w → Redoes (.reference v) (.reference w)
  | override {a b : Entry Account} (o : Override) : ρ.Renames (.account a) (.account b) →
    Redoes (.override a o) (.override b o)

/-- The second item is the same statement as the first, or tells the same reference, with new
identifiers, to be skipped. -/
inductive Leaves : Item → Item → Prop
  | statement (text : String) : Leaves (.statement text) (.statement text)
  | skipped {v w : Visit} : ρ.Revisits v w → Leaves (.skipped v.reference) (.skipped w.reference)

/-- The second diagnostic is that for the reference of the first with a new identifier of the owner,
unless this is an account, and a new one that is missing. -/
inductive Rewords : Diagnostic → Diagnostic → Prop
  | intro (relation : Relation) {owner owner' : Identifier} {missing missing' : Value} :
    owner'.text = ρ.of relation.ownerKind owner.text →
    (relation.ownerKind = .account → owner' = owner) →
    ρ.Captures relation.targetKind missing missing' →
    Rewords (Reference.diagnostic ⟨relation.ownerKind, owner, relation.targetKind, missing⟩)
      (Reference.diagnostic ⟨relation.ownerKind, owner', relation.targetKind, missing'⟩)

variable {ρ}

/-- A text captures the identifier that a renaming gives for it. -/
private theorem captures_text (kind : Kind) (s : String) :
    ρ.Captures kind (.text s) (.text (ρ.of kind s)) :=
  ⟨rfl, nofun⟩

/-! ## Entities -/

namespace Renames

variable {e f : Entity} (h : ρ.Renames e f)

include h

/-- Entities that a renaming relates are both configured ones. -/
private theorem isScripted_eq : e.isScripted = false ∧ f.isScripted = false := by
  cases h <;> exact ⟨rfl, rfl⟩

/-- A renamed entity has the new identifier. -/
theorem identifier_eq : f.identifier.text = ρ.of e.kind e.identifier.text := by
  cases h with
  | permission _ hid => exact hid
  | group _ hid _ => exact hid
  | role _ hid _ _ => exact hid
  | _ => rfl

/-- A renaming leaves the identifier of an account. -/
private theorem identifier_eq_of_account (haccount : e.kind = .account) :
    f.identifier = e.identifier := by
  cases h with
  | account => rfl
  | _ => simp [Entity.kind] at haccount

/-- A renaming does not show in the statements for an entity. -/
theorem emit_eq (names : Names) : f.emit names = e.emit names := by cases h <;> rfl

theorem lookup?_eq (names : Names) : f.lookup? names = e.lookup? names := by cases h <;> rfl

theorem split_eq : f.split = e.split := by cases h <;> rfl

/-- The targets that a renamed entity lists are the new identifiers of the old ones, in their
order. -/
theorem targets (relation : Relation) :
    (e.targets relation).Forall₂ (ρ.Captures relation.targetKind) (f.targets relation) := by
  cases h with
  | group c _ hps =>
    cases relation with
    | groupPermission => exact hps
    | _ => exact .nil
  | role c _ hps has =>
    cases relation with
    | rolePermission => exact hps
    | roleGroup =>
      -- Groups are attached by texts; windows and metadata have no part in the references.
      simp only [Entity.targets, Entry.roleGroups, Entry.elim, Role.groups, List.map_map,
        List.forall₂_map_left_iff, List.forall₂_map_right_iff]
      refine has.imp fun a b hab => ?_
      rw [Function.comp_apply, Function.comp_apply, hab]
      exact captures_text .group a.groupId
    | _ => exact .nil
  | account id c os hrs =>
    cases relation with
    | accountRole => exact hrs
    | _ => exact .nil
  | _ => cases relation <;> exact .nil

end Renames

/-! ## Visits -/

/-- Under a new identifier stands the entity with new identifiers, if there is one. -/
theorem Relates.entity {r t : Registry} (h : ρ.Relates r t) (kind : Kind) (id : String) :
    Option.Rel ρ.Renames (r.entity kind id).toOption (t.entity kind (ρ.of kind id)).toOption := by
  have hlookup : Option.Rel ρ.Renames ((r.registrations kind).lookup id)
      ((t.registrations kind).lookup (ρ.of kind id)) :=
    lookup_of_forall₂ (ρ.of_injective kind) (h.registrations kind) id
  rw [Registry.entity_eq, Registry.entity_eq, Identifier.text, Identifier.text]
  generalize (r.registrations kind).lookup id = x at hlookup ⊢
  generalize (t.registrations kind).lookup (ρ.of kind id) = y at hlookup ⊢
  cases hlookup with
  | none => exact .none
  | some hef => exact .some hef

namespace Revisits

variable {v w : Visit} (h : ρ.Revisits v w)

include h

/-- A diagnostic for a renamed visit says the same of the new identifiers. -/
private theorem rewords : ρ.Rewords v.reference.diagnostic w.reference.diagnostic := by
  rw [Visit.reference, Visit.reference, h.relation]
  exact .intro v.relation (h.kind ▸ h.owner.identifier_eq)
    (fun haccount => h.owner.identifier_eq_of_account (h.kind.trans haccount)) h.target

/-- A reference leads to the same entity under its new identifier, or nowhere in both registries. -/
theorem target? {r t : Registry} (hrt : ρ.Relates r t) :
    Option.Rel ρ.Renames (v.target? r) (w.target? t) := by
  rw [Visit.target?, Visit.target?, h.relation, h.target.text]
  cases v.target.text? with
  | none => exact .none
  | some id =>
    exact hrt.entity v.relation.targetKind id

/-- A renamed visit leaves the same statement, or a diagnostic of the new identifiers. -/
theorem visitItem {r t : Registry} (hrt : ρ.Relates r t) :
    ρ.Leaves (r.visitItem v) (t.visitItem w) := by
  have htarget := h.target? hrt
  rw [Registry.visitItem, Registry.visitItem]
  generalize v.target? r = x at htarget ⊢
  generalize w.target? t = y at htarget ⊢
  cases htarget with
  | none => exact .skipped h
  | some hef =>
    simp only [Visit.statement, h.relation, h.owner.lookup?_eq, hef.lookup?_eq, hrt.names]
    exact .statement _

end Revisits

/-! ## Items -/

/-- Compilations that leave alike at each place leave the same statements. -/
private theorem statements_of_leaves {xs ys : List Item} (h : xs.Forall₂ ρ.Leaves ys) :
    (Compilation.ofItems ys).statements = (Compilation.ofItems xs).statements := by
  have hstatements : ys.filterMap Item.statement? = xs.filterMap Item.statement? := by
    induction h with
    | nil => rfl
    | cons hxy _ ih => cases hxy <;> simp [List.filterMap_cons, ih]
  rw [Compilation.ofItems, Compilation.ofItems, hstatements]

/-- Compilations that leave alike at each place leave diagnostics that correspond in order. -/
private theorem diagnostics_of_leaves {xs ys : List Item} (h : xs.Forall₂ ρ.Leaves ys) :
    (Compilation.ofItems xs).diagnostics.Forall₂ ρ.Rewords
      (Compilation.ofItems ys).diagnostics := by
  induction h with
  | nil => exact .nil
  | cons hxy _ ih =>
    cases hxy with
    | statement _ => exact ih
    | skipped hvw => exact .cons hvw.rewords ih

/-- The statements of an entity are left alike by both compilations. -/
private theorem leaves_emitted (split : Emission → List String) (x : Except Failure Emission) :
    Except.Agree Eq (List.Forall₂ ρ.Leaves) (emitted split x) (emitted split x) := by
  cases x with
  | error failure => exact .error rfl
  | ok emission =>
    refine .ok (List.forall₂_same.mpr fun item hitem => ?_)
    obtain ⟨text, -, rfl⟩ := List.mem_map.mp hitem
    exact .statement text

end Renaming

/-- An entity that follows no script emits no list in the place of a statement. -/
private theorem Entry.emitsList_of_configured {α : Type} {e : Entry α}
    (h : e.elim (fun _ => false) (fun _ => true) = false) : e.emitsList = false := by
  cases e with
  | configured _ => rfl
  | scripted _ => exact absurd h.symm Bool.false_ne_true

/-- Without scripts no entity emits a list in the place of a statement. -/
private theorem Registry.emitsList_of_configured {r : Registry}
    (h : ∀ kind, ∀ e ∈ r.ofKind kind, e.isScripted = false) : r.emitsList = false := by
  have hone : ∀ {α : Type} {s : Store (Entry α)},
      (∀ e ∈ s.toList, e.elim (fun _ => false) (fun _ => true) = false) →
        s.toList.any Entry.emitsList = false := fun hs =>
    List.any_eq_false.mpr fun e he => Bool.eq_false_iff.mp (Entry.emitsList_of_configured (hs e he))
  rw [emitsList, hone fun e he => h .setting _ (List.mem_map_of_mem he),
    hone fun e he => h .permission _ (List.mem_map_of_mem he),
    hone fun e he => h .group _ (List.mem_map_of_mem he),
    hone fun e he => h .role _ (List.mem_map_of_mem he)]
  rfl

/-! ## Tasks -/

namespace Renaming.Relates

variable {ρ : Renaming} {r t : Registry} (h : ρ.Relates r t)

include h

/-- Renamed visits stand in the places of the old ones. -/
theorem visits (relation : Relation) :
    (r.visits relation).Forall₂ ρ.Revisits (t.visits relation) := by
  have howners := (List.forall₂_and_left _ _).mpr
    ⟨fun _ => Registry.kind_of_mem, h.ofKind relation.ownerKind⟩
  refine List.rel_flatMap howners fun e f hef => ?_
  rw [List.forall₂_map_left_iff, List.forall₂_map_right_iff]
  exact (hef.2.targets relation).imp fun v w hvw => ⟨rfl, hef.1, hef.2, hvw⟩

/-- What a phase does after a renaming stands in the places of what it did. -/
theorem duties (p : Phase) : (r.duties p).Forall₂ ρ.Redoes (t.duties p) := by
  cases p using Phase.byContent with
  | rows kind =>
    rw [Registry.duties_kind, Registry.duties_kind, List.forall₂_map_left_iff,
      List.forall₂_map_right_iff]
    exact (h.ofKind kind).imp fun _ _ => .row
  | links relation =>
    rw [Registry.duties_relation, Registry.duties_relation, List.forall₂_map_left_iff,
      List.forall₂_map_right_iff]
    exact (h.visits relation).imp fun _ _ => .reference
  | overrides =>
    have haccounts := h.ofKind .account
    rw [Registry.ofKind, Registry.ofKind, List.forall₂_map_left_iff,
      List.forall₂_map_right_iff] at haccounts
    refine List.rel_flatMap haccounts fun a b hab => ?_
    -- Overrides name permissions by their names, which stay.
    have hoverrides : b.accountOverrides = a.accountOverrides := by
      cases hab
      rfl
    rw [hoverrides, List.forall₂_map_left_iff, List.forall₂_map_right_iff]
    exact List.forall₂_same.mpr fun o _ => .override o hab

/-- A registry with new identifiers has the same tasks. -/
theorem tasks : r.tasks.Forall₂ ρ.Redoes t.tasks := by
  have hphases : Phase.all.Forall₂ Eq Phase.all := List.forall₂_refl _
  refine List.rel_flatMap hphases fun p q hpq => ?_
  subst hpq
  exact .cons (.marker p) (h.duties p)

/-- A task leaves the same. -/
theorem perform {k l : Task} (hkl : ρ.Redoes k l) :
    Except.Agree Eq (List.Forall₂ ρ.Leaves) (r.perform k) (t.perform l) := by
  cases hkl with
  | marker p => exact .ok (.cons (.statement p.marker) .nil)
  | row hef =>
    rw [Registry.perform, Registry.perform, hef.emit_eq, hef.split_eq, h.names]
    exact leaves_emitted _ _
  | reference hvw => exact .ok (.cons (hvw.visitItem h) .nil)
  -- The look-up of the account is the same, as its identifier is.
  | @override a b o hab =>
    have hfind : b.findAccount r.names = a.findAccount r.names :=
      Option.some.inj (hab.lookup?_eq r.names)
    rw [Registry.perform, Registry.perform, Registry.overrideItem,
      Registry.overrideItem, h.names, hfind]
    exact leaves_emitted _ _

/-- No script of two registries that a renaming relates emits a list of statements. -/
private theorem emitsList_eq_false : r.emitsList = false ∧ t.emitsList = false := by
  refine ⟨Registry.emitsList_of_configured fun kind e he => ?_,
    Registry.emitsList_of_configured fun kind f hf => ?_⟩
  · obtain ⟨f, -, hef⟩ := exists_of_forall₂ (h.ofKind kind) he
    exact hef.isScripted_eq.1
  · obtain ⟨e, -, hef⟩ := exists_of_forall₂ (List.Forall₂.flip (h.ofKind kind)) hf
    exact hef.isScripted_eq.2

/-- Related registries compile to the same statements, or fail alike. -/
theorem compile : Except.Agree Eq (fun c d : Compilation =>
      d.statements = c.statements ∧ c.diagnostics.Forall₂ ρ.Rewords d.diagnostics)
    r.compile.result t.compile.result := by
  have hitems := gather_agree h.tasks fun k l => h.perform (k := k) (l := l)
  -- Nothing is scripted, so that only a task that fails makes a compilation fail.
  rw [Registry.compile_eq_perform, Registry.compile_eq_perform, h.emitsList_eq_false.1,
    h.emitsList_eq_false.2]
  generalize gather r.perform r.tasks = x at hitems ⊢
  generalize gather t.perform t.tasks = y at hitems ⊢
  cases hitems with
  | error hfailure => exact .error (congrArg Error.compilation hfailure)
  | ok hleaves => exact .ok ⟨statements_of_leaves hleaves, diagnostics_of_leaves hleaves⟩

end Renaming.Relates

namespace Registry

/-- A run that is replayed under new identifiers, with any other terms that are accepted where
groups are attached to roles: the same commands succeed, and the graphs compile to the same
statements, or fail with the same error.  Diagnostics differ in identifiers only. -/
theorem compile_renamed (ρ : Renaming) (names : Names) {cs ds : List Command}
    (h : cs.Forall₂ ρ.Replays ds) :
    (empty names).successes ds = (empty names).successes cs ∧
      Except.Agree Eq (fun c d : Compilation =>
          d.statements = c.statements ∧ c.diagnostics.Forall₂ ρ.Rewords d.diagnostics)
        ((empty names).attempts cs).compile.result ((empty names).attempts ds).compile.result := by
  obtain ⟨hrelates, hsuccesses⟩ := (Renaming.relates_empty (ρ := ρ) names).attempts h
  exact ⟨hsuccesses, hrelates.compile⟩

/-- Prefixed identifiers. -/
def prefixed : Renaming where
  permission := ("permission-" ++ ·)
  group := ("group-" ++ ·)
  role := ("role-" ++ ·)
  permission_injective := fun _ _ => String.append_right_inj _ |>.mp
  group_injective := fun _ _ => String.append_right_inj _ |>.mp
  role_injective := fun _ _ => String.append_right_inj _ |>.mp

/-- A run with a refused command, in which a group refers to a permission that is not registered. -/
def originalCommands : List Command :=
  [.define (.systemPermission "p" (.text "account") (.text "select") (.text "read") .null .null),
    .define (.group "g" (.ofTable [("name", .text "staff")])),
    .define (.group "g" (.ofTable [("name", .text "others")])),
    .define (.role "r" (.ofTable [("name", .text "clerk")])),
    .link (.groupPermission "g" (.text "p")),
    .link (.groupPermission "g" (.text "gone")),
    .link (.roleGroup "r" (.text "g") .none)]

/-- The run under prefixed identifiers, with other terms. -/
def replayedCommands : List Command :=
  [.define (.systemPermission "permission-p" (.text "account") (.text "select") (.text "read")
      .null .null),
    .define (.group "group-g" (.ofTable [("name", .text "staff")])),
    .define (.group "group-g" (.ofTable [("name", .text "others")])),
    .define (.role "role-r" (.ofTable [("name", .text "clerk")])),
    .link (.groupPermission "group-g" (.text "permission-p")),
    .link (.groupPermission "group-g" (.text "permission-gone")),
    .link (.roleGroup "role-r" (.text "group-g") ⟨.text "2030-01-01", .null, .dictionary []⟩)]

/-- Commands that are replayed with a prefix before each identifier leave the same statements, and a
diagnostic that names the prefixed ones. -/
theorem compile_renamed_prefixed :
    (empty ⟨"access", "auth"⟩).successes replayedCommands
        = (empty ⟨"access", "auth"⟩).successes originalCommands ∧
      ∃ c d, ((empty ⟨"access", "auth"⟩).attempts originalCommands).compile.result = .ok c ∧
        ((empty ⟨"access", "auth"⟩).attempts replayedCommands).compile.result = .ok d ∧
        d.statements = c.statements ∧ c.diagnostics.length = 1 ∧
        c.diagnostics.Forall₂ prefixed.Rewords d.diagnostics := by
  have hgroup : prefixed.Attaches (.text "g") (.text "group-g") := by
    refine ⟨fun s hs => ?_, fun hnone => absurd rfl (hnone "g")⟩
    obtain rfl := Checked.ok.inj hs
    rfl
  have hterms : Terms.none.Accepted ↔ Terms.Accepted ⟨.text "2030-01-01", .null, .dictionary []⟩ :=
    ⟨fun _ => ⟨.text "", _, rfl⟩, fun _ => ⟨.text "", _, rfl⟩⟩
  have hreplays : originalCommands.Forall₂ prefixed.Replays replayedCommands :=
    .cons (.define (.permission _ rfl)) <| .cons (.define (.group _ rfl)) <|
      .cons (.define (.group _ rfl)) <| .cons (.define (.role _ rfl)) <|
      .cons (.link (.groupPermission "g" (Renaming.captures_text .permission "p"))) <|
      .cons (.link (.groupPermission "g" (Renaming.captures_text .permission "gone"))) <|
      .cons (.link (.roleGroup "r" hgroup hterms)) .nil
  obtain ⟨hsuccesses, hcompile⟩ := compile_renamed prefixed ⟨"access", "auth"⟩ hreplays
  -- The first run compiles and leaves one diagnostic; so does the second.
  have hcount : ((empty ⟨"access", "auth"⟩).attempts originalCommands).compile.result.toOption.map
      (fun c => c.diagnostics.length) = some 1 := by
    decide +kernel
  generalize ((empty ⟨"access", "auth"⟩).attempts originalCommands).compile.result = x
    at hcompile hcount ⊢
  generalize ((empty ⟨"access", "auth"⟩).attempts replayedCommands).compile.result = y
    at hcompile ⊢
  cases hcompile with
  | error _ => simp [Except.toOption] at hcount
  | @ok c d hcd => exact ⟨hsuccesses, c, d, rfl, rfl, hcd.1, Option.some.inj hcount, hcd.2⟩

end Registry

end AccessGraph
