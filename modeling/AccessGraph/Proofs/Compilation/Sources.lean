import AccessGraph.Compilation.Script
import AccessGraph.Proofs.Registry.Reachable
import Mathlib.Data.List.Basic

/-!
# Where statements come from

A reference definition of compilation, by what each statement is written for.  `Registry.visits`
lists the references of a relation in the order in which they are visited; a visit has one
`Visit.outcome`, a link or a diagnosis.  `Registry.block` lists what the statements of a phase are
written for, and `Registry.sources` puts the phases together.

`Registry.compile_eq_sources` says that compilation writes just these statements, without the blank
ones, and reports just these diagnoses.  Failures are left out: every entity has to emit.
-/

namespace AccessGraph

open Sql (Row)

/-! ## Relations -/

/-- A relation between two kinds of entities. -/
inductive Relation where
  | groupPermission | rolePermission | roleGroup | accountRole
  deriving DecidableEq, Repr

namespace Relation

/-- The relations in the order in which they are written. -/
def all : List Relation := [.groupPermission, .rolePermission, .roleGroup, .accountRole]

/-- The phase in which a relation is written. -/
def phase : Relation → Phase
  | .groupPermission => .groupPermissions
  | .rolePermission => .rolePermissions
  | .roleGroup => .roleGroups
  | .accountRole => .accountRoles

/-- The kind of entities that hold the references. -/
def ownerKind : Relation → Kind
  | .groupPermission => .group
  | .rolePermission => .role
  | .roleGroup => .role
  | .accountRole => .account

/-- The kind of entities that are referred to. -/
def targetKind : Relation → Kind
  | .groupPermission => .permission
  | .rolePermission => .permission
  | .roleGroup => .group
  | .accountRole => .role

/-- The table of a relation. -/
def table : Relation → String
  | .groupPermission => Tables.groupPermissions
  | .rolePermission => Tables.rolePermissions
  | .roleGroup => Tables.roleGroups
  | .accountRole => Tables.accountRoles

/-- The column that refers to entities of a kind. -/
def column : Kind → String
  | .setting => "key"
  | .permission => "permission_id"
  | .group => "group_id"
  | .role => "role_id"
  | .account => "account_id"

/-- The column that tells when two entities were related, if there is one. -/
def stamp? : Relation → Option String
  | .groupPermission => some "added_at"
  | .rolePermission => none
  | .roleGroup => some "assigned_at"
  | .accountRole => some "assigned_at"

/-- The row that relates an owner to a target, both given by subqueries. -/
def row (names : Names) (relation : Relation) (owner target : String) : Row :=
  ⟨names.table relation.table,
    [(column relation.ownerKind, owner), (column relation.targetKind, target)]
      ++ relation.stamp?.toList.map fun c => (c, "NOW()")⟩

/-- The list of relations leaves none out. -/
theorem mem_all (relation : Relation) : relation ∈ all := by cases relation <;> decide

end Relation

/-- The phase in which the rows of a kind are written. -/
def Kind.phase : Kind → Phase
  | .setting => .settings
  | .permission => .permissions
  | .group => .groups
  | .role => .roles
  | .account => .accounts

/-- What holds of the phases that write the rows of a kind, of those that write a relation and of
the one that writes the overrides, holds of every phase. -/
@[elab_as_elim]
theorem Phase.byContent {motive : Phase → Prop} (rows : ∀ kind : Kind, motive kind.phase)
    (links : ∀ relation : Relation, motive relation.phase) (overrides : motive .overrides)
    (p : Phase) : motive p := by
  cases p with
  | settings => exact rows .setting
  | permissions => exact rows .permission
  | groups => exact rows .group
  | roles => exact rows .role
  | accounts => exact rows .account
  | groupPermissions => exact links .groupPermission
  | rolePermissions => exact links .rolePermission
  | roleGroups => exact links .roleGroup
  | accountRoles => exact links .accountRole
  | overrides => exact overrides

/-- The references that an entity holds as the owner in a relation. -/
def Entity.targets : Relation → Entity → List Value
  | .groupPermission, .group e => e.groupPermissions
  | .rolePermission, .role e => e.rolePermissions
  | .roleGroup, .role e => e.roleGroups
  | .accountRole, .account e => e.accountRoles
  | _, _ => []

/-- The statements that an entity emits. -/
def Entity.texts (names : Names) (e : Entity) : List String :=
  match e.emit names with
  | .ok emission => emission.texts
  | .error _ => []

/-! ## Visits -/

/-- One reference of an owner, as it is visited. -/
structure Visit where
  relation : Relation
  owner : Entity
  target : Value

/-- What a statement is written for. -/
inductive Source where
  | marker (phase : Phase)
  /-- One of the statements that an entity emits. -/
  | emitted (entity : Entity) (text : String)
  | link (visit : Visit) (target : Entity)
  | override (owner : Entry Account) (override : Override)

namespace Visit

/-- The statement that relates the owner to the entity referred to. -/
def statement (names : Names) (v : Visit) (target : Entity) : String :=
  (v.relation.row names ((v.owner.lookup? names).getD "") ((target.lookup? names).getD "")).link

/-- The visit as a reference. -/
def reference (v : Visit) : Reference :=
  ⟨v.relation.ownerKind, v.owner.identifier, v.relation.targetKind, v.target⟩

/-- The entity that is referred to, if one is registered under the identifier among those of its
kind. -/
def target? (r : Registry) (v : Visit) : Option Entity :=
  v.target.text?.bind fun id => (r.entity v.relation.targetKind id).toOption

/-- What becomes of a reference: a link, or a diagnosis by relation, owner and missing
identifier. -/
def outcome (r : Registry) (v : Visit) : Source ⊕ (String × String × String) :=
  match v.target? r with
  | some target => .inl (.link v target)
  | none =>
    .inr (v.relation.ownerKind.innerNoun, v.owner.identifier.text, v.target.text?.getD "")

end Visit

/-- Whether a source is a link. -/
def Source.isLink : Source → Bool
  | .link _ _ => true
  | _ => false

/-- The statement of a source. -/
def Source.text (names : Names) : Source → String
  | .marker p => p.marker
  | .emitted _ text => text
  | .link v target => v.statement names target
  | .override a o =>
    match o.row names (a.findAccount names) with
    | .ok row => row.spread
    | .error _ => ""

namespace Registry

variable (r : Registry)

/-- The references of a relation: owner by owner in the order of registration, for each owner in
the order of its list. -/
def visits (relation : Relation) : List Visit :=
  (r.ofKind relation.ownerKind).flatMap fun e =>
    (e.targets relation).map fun v => ⟨relation, e, v⟩

/-- What the entities of a kind emit. -/
def rows (kind : Kind) : List Source :=
  (r.ofKind kind).flatMap fun e => (e.texts r.names).map (.emitted e)

/-- The links of a relation. -/
def links (relation : Relation) : List Source :=
  (r.visits relation).filterMap fun v => (v.outcome r).getLeft?

/-- What the statements of a phase are written for, except for the marker. -/
def block : Phase → List Source
  | .settings => r.rows .setting
  | .permissions => r.rows .permission
  | .groups => r.rows .group
  | .roles => r.rows .role
  | .accounts => r.rows .account
  | .groupPermissions => r.links .groupPermission
  | .rolePermissions => r.links .rolePermission
  | .roleGroups => r.links .roleGroup
  | .accountRoles => r.links .accountRole
  | .overrides => r.accounts.toList.flatMap fun a => a.accountOverrides.map (.override a)

/-- What the statements of a compilation are written for. -/
def sources : List Source := Phase.all.flatMap fun p => .marker p :: r.block p

/-- The references that are visited, relation by relation. -/
def allVisits : List Visit := Relation.all.flatMap r.visits

/-- Every entity and every override emits: accounts a list of statements, the others one. -/
structure Emits : Prop where
  statement : ∀ kind ≠ .account, ∀ e ∈ r.ofKind kind, ∃ t, e.emit r.names = .ok (.statement t)
  statements : ∀ e ∈ r.ofKind .account, ∃ ts, e.emit r.names = .ok (.statements ts)
  overrides : ∀ a ∈ r.accounts.toList, ∀ o ∈ a.accountOverrides,
    ∃ row, o.row r.names (a.findAccount r.names) = .ok row

end Registry

/-! ## Items of a phase -/

namespace Item

@[simp] theorem statement?_statement (t : String) : (statement t).statement? = some t := rfl

@[simp] theorem statement?_skipped (ref : Reference) : (skipped ref).statement? = none := rfl

@[simp] theorem skipped?_statement (t : String) : (statement t).skipped? = none := rfl

@[simp] theorem skipped?_skipped (ref : Reference) : (skipped ref).skipped? = some ref := rfl

end Item

/-- Steps that all give something are gathered in order. -/
theorem gather_eq_ok {ε α β : Type} {f : α → Except ε (List β)} {g : α → List β} {as : List α}
    (h : ∀ a ∈ as, f a = .ok (g a)) : gather f as = .ok (as.flatMap g) := by
  induction as with
  | nil => rfl
  | cons a as ih =>
    obtain ⟨ha, has⟩ := List.forall_mem_cons.mp h
    rw [gather, ha, ih has]
    rfl

namespace Registry

variable {r : Registry}

/-- The item that a visit leaves. -/
def visitItem (r : Registry) (v : Visit) : Item :=
  match v.target? r with
  | some target => .statement (v.statement r.names target)
  | none => .skipped v.reference

/-- Looking for an entity of any kind looks in the store of that kind. -/
theorem toOption_find {α : Type} (s : Store α) (kind : Kind) (id : String) (wrap : α → Entity) :
    ((find s kind id).map wrap).toOption = (s.get? id).map wrap := by
  have hid : (id : Identifier).text = id := rfl
  rw [find, hid]
  cases s.get? id <;> rfl

/-- The item of a reference is that of its visit. -/
private theorem linkItem_eq {α : Type} (relation : Relation) (owner : Entity) {s : Store α}
    (wrap : α → Entity) {row : α → Row} (v : Value)
    (hs : ∀ id : String, (r.entity relation.targetKind id).toOption = (s.get? id).map wrap)
    (hrow : ∀ a, row a = relation.row r.names ((owner.lookup? r.names).getD "")
      (((wrap a).lookup? r.names).getD "")) :
    linkItem s row ⟨relation.ownerKind, owner.identifier, relation.targetKind, v⟩
      = r.visitItem ⟨relation, owner, v⟩ := by
  unfold linkItem visitItem Visit.target?
  simp only [hs]
  -- An identifier that is no text leads nowhere on both sides.
  cases v.text? with
  | none => rfl
  | some id =>
    simp only [Option.bind_some]
    cases s.get? id with
    | none => rfl
    | some a => simp [Visit.statement, hrow]

/-- The items of the references that owners hold are those of the visits. -/
theorem items_of_references {α β : Type} (relation : Relation) {owners : Store α}
    {owner : α → Entity} (howners : r.ofKind relation.ownerKind = owners.toList.map owner)
    {refs : α → List Reference}
    (hrefs : ∀ a, refs a = ((owner a).targets relation).map fun v =>
      ⟨relation.ownerKind, (owner a).identifier, relation.targetKind, v⟩)
    {targets : Store β} {target : β → Entity}
    (htargets : ∀ id : String,
      (r.entity relation.targetKind id).toOption = (targets.get? id).map target)
    {row : α → β → Row}
    (hrow : ∀ a b, row a b = relation.row r.names (((owner a).lookup? r.names).getD "")
      (((target b).lookup? r.names).getD "")) :
    (owners.toList.flatMap fun a => (refs a).map (linkItem targets (row a)))
      = (r.visits relation).map r.visitItem := by
  rw [visits, howners, List.flatMap_map, List.map_flatMap]
  -- Owner by owner, and for each owner reference by reference.
  refine List.flatMap_congr fun a _ => ?_
  rw [hrefs, List.map_map, List.map_map]
  refine List.map_congr_left fun v _ => ?_
  exact linkItem_eq relation (owner a) target v htargets (hrow a)

/-- The items of a relation's phase are those of its visits. -/
theorem items_relation (relation : Relation) :
    r.items relation.phase = .ok ((r.visits relation).map r.visitItem) := by
  -- The relations differ in their lists, their rows and where the targets are.
  cases relation with
  | groupPermission =>
    exact congrArg Except.ok (items_of_references .groupPermission rfl (fun _ => rfl)
      (fun id => toOption_find r.permissions .permission id .permission) fun _ _ => rfl)
  | rolePermission =>
    exact congrArg Except.ok (items_of_references .rolePermission rfl (fun _ => rfl)
      (fun id => toOption_find r.permissions .permission id .permission) fun _ _ => rfl)
  | roleGroup =>
    exact congrArg Except.ok (items_of_references .roleGroup rfl (fun _ => rfl)
      (fun id => toOption_find r.groups .group id .group) fun _ _ => rfl)
  | accountRole =>
    exact congrArg Except.ok (items_of_references .accountRole rfl (fun _ => rfl)
      (fun id => toOption_find r.roles .role id .role) fun _ _ => rfl)

/-- The item of a source, which is always a statement. -/
def sourceItem (r : Registry) (s : Source) : Item := .statement (s.text r.names)

/-- The items of entities that emit are the statements that they emit. -/
private theorem gather_emit {α : Type} {as : List α} {wrap : α → Entity}
    {emit : α → Except Failure Emission} {split : Emission → List String}
    (hemit : ∀ a ∈ as, (wrap a).emit r.names = emit a)
    (h : ∀ a ∈ as, ∃ emission, emit a = .ok emission ∧ split emission = emission.texts) :
    gather (fun a => emitted split (emit a)) as
      = .ok (((as.map wrap).flatMap fun e => (e.texts r.names).map (.emitted e)).map
        r.sourceItem) := by
  -- For each member the step leaves its statements, one item each.
  have hstep : ∀ a ∈ as, emitted split (emit a)
      = .ok (((wrap a).texts r.names).map .statement) := by
    intro a ha
    obtain ⟨emission, hok, hsplit⟩ := h a ha
    rw [Entity.texts, hemit a ha, hok]
    show Except.ok ((split emission).map Item.statement) = _
    rw [hsplit]
  rw [gather_eq_ok hstep, List.flatMap_map, List.map_flatMap]
  simp [Function.comp_def, sourceItem, Source.text]

/-- The items of the phase of a kind are those of its rows. -/
theorem items_kind (h : r.Emits) (kind : Kind) :
    r.items kind.phase = .ok ((r.rows kind).map r.sourceItem) := by
  -- All kinds but accounts emit one statement, and accounts a list of them.
  cases kind with
  | setting =>
    refine gather_emit (fun _ _ => rfl) fun e he => ?_
    obtain ⟨t, ht⟩ := h.statement .setting (by decide) _ (List.mem_map_of_mem he)
    exact ⟨_, ht, rfl⟩
  | permission =>
    refine gather_emit (fun _ _ => rfl) fun e he => ?_
    obtain ⟨t, ht⟩ := h.statement .permission (by decide) _ (List.mem_map_of_mem he)
    exact ⟨_, ht, rfl⟩
  | group =>
    refine gather_emit (fun _ _ => rfl) fun e he => ?_
    obtain ⟨t, ht⟩ := h.statement .group (by decide) _ (List.mem_map_of_mem he)
    exact ⟨_, ht, rfl⟩
  | role =>
    refine gather_emit (fun _ _ => rfl) fun e he => ?_
    obtain ⟨t, ht⟩ := h.statement .role (by decide) _ (List.mem_map_of_mem he)
    exact ⟨_, ht, rfl⟩
  | account =>
    refine gather_emit (fun _ _ => rfl) fun e he => ?_
    obtain ⟨ts, hts⟩ := h.statements _ (List.mem_map_of_mem he)
    exact ⟨_, hts, rfl⟩

/-- The items of the last phase are those of the overrides. -/
theorem items_overrides (h : r.Emits) :
    r.items .overrides = .ok ((r.block .overrides).map r.sourceItem) := by
  have hone : ∀ a ∈ r.accounts.toList, ∀ o ∈ a.accountOverrides,
      overrideItem r.names a o = .ok [r.sourceItem (.override a o)] := by
    intro a ha o ho
    obtain ⟨row, hrow⟩ := h.overrides a ha o ho
    simp [overrideItem, hrow, spreadRow, emitted, Except.map, Emission.texts, sourceItem,
      Source.text]
  -- The inner list goes through the overrides of one account, the outer one through the accounts.
  have hall : ∀ a ∈ r.accounts.toList, gather (overrideItem r.names a) a.accountOverrides
      = .ok (a.accountOverrides.flatMap fun o => [r.sourceItem (.override a o)]) :=
    fun a ha => gather_eq_ok (hone a ha)
  show gather (fun a => gather (overrideItem r.names a) a.accountOverrides) r.accounts.toList = _
  rw [gather_eq_ok hall]
  simp [block, List.map_flatMap, Function.comp_def, ← List.map_eq_flatMap]

/-- The visits of a relation that lead nowhere. -/
def missing (r : Registry) (relation : Relation) : List Visit :=
  (r.visits relation).filter fun v => (v.target? r).isNone

/-- The visits of a phase that lead nowhere. -/
def skips (r : Registry) : Phase → List Visit
  | .groupPermissions => r.missing .groupPermission
  | .rolePermissions => r.missing .rolePermission
  | .roleGroups => r.missing .roleGroup
  | .accountRoles => r.missing .accountRole
  | _ => []

/-- The phase of a kind writes its rows. -/
theorem block_kind (kind : Kind) : r.block kind.phase = r.rows kind := by cases kind <;> rfl

theorem block_relation (relation : Relation) : r.block relation.phase = r.links relation := by
  cases relation <;> rfl

/-- The phase of a kind skips nothing. -/
theorem skips_kind (kind : Kind) : r.skips kind.phase = [] := by cases kind <;> rfl

theorem skips_relation (relation : Relation) : r.skips relation.phase = r.missing relation := by
  cases relation <;> rfl

/-- Only the phases of relations skip anything, and they come in the order of the relations. -/
theorem flatMap_skips_all : Phase.all.flatMap r.skips = Relation.all.flatMap r.missing := by
  simp [Phase.all, Relation.all, skips]

/-- What the items of visits are written for and what they skip. -/
theorem filterMap_visitItem (vs : List Visit) :
    (vs.map r.visitItem).filterMap Item.statement?
        = (vs.filterMap fun v => (v.outcome r).getLeft?).map (Source.text r.names) ∧
      (vs.map r.visitItem).filterMap Item.skipped?
        = (vs.filter fun v => (v.target? r).isNone).map Visit.reference := by
  -- A visit adds to one of the two lists, depending on whether its target is registered.
  induction vs with
  | nil => exact ⟨rfl, rfl⟩
  | cons v vs ih =>
    cases hv : v.target? r with
    | none =>
      have hitem : r.visitItem v = .skipped v.reference := by rw [visitItem, hv]
      have houtcome : (v.outcome r).getLeft? = none := by rw [Visit.outcome, hv]; rfl
      simp [List.filterMap_cons, hitem, houtcome, hv, ih]
    | some target =>
      have hitem : r.visitItem v = .statement (v.statement r.names target) := by
        rw [visitItem, hv]
      have houtcome : (v.outcome r).getLeft? = some (.link v target) := by
        rw [Visit.outcome, hv]; rfl
      simp [List.filterMap_cons, hitem, houtcome, hv, ih, Source.text]

/-- What is written is left as a statement each, and none of it is skipped. -/
private theorem filterMap_sourceItem (ss : List Source) :
    (ss.map r.sourceItem).filterMap Item.statement? = ss.map (Source.text r.names) ∧
      (ss.map r.sourceItem).filterMap Item.skipped? = [] := by
  induction ss with
  | nil => exact ⟨rfl, rfl⟩
  | cons s ss ih => simp [List.filterMap_cons, sourceItem, ih]

/-- What the items of a phase are written for and what they skip. -/
theorem items_eq (h : r.Emits) (p : Phase) :
    ∃ items, r.items p = .ok items ∧
      items.filterMap Item.statement? = (r.block p).map (Source.text r.names) ∧
      items.filterMap Item.skipped? = (r.skips p).map Visit.reference := by
  cases p using Phase.byContent with
  | rows kind =>
    rw [block_kind, skips_kind]
    exact ⟨_, items_kind h kind, filterMap_sourceItem (r.rows kind)⟩
  | links relation =>
    rw [block_relation, skips_relation]
    exact ⟨_, items_relation relation, filterMap_visitItem (r.visits relation)⟩
  | overrides => exact ⟨_, items_overrides h, filterMap_sourceItem (r.block .overrides)⟩

/-! ## Compilation -/

/-- What the items of several phases are written for and what they skip. -/
theorem runPhases_eq (h : r.Emits) (ps : List Phase) :
    ∃ items, (r.runPhases ps).2 = .ok items ∧
      items.filterMap Item.statement?
        = (ps.flatMap fun p => .marker p :: r.block p).map (Source.text r.names) ∧
      items.filterMap Item.skipped? = (ps.flatMap r.skips).map Visit.reference := by
  induction ps with
  | nil => exact ⟨[], rfl, rfl, rfl⟩
  | cons p ps ih =>
    -- The marker goes in front of the items of the phase, which are in front of all others.
    obtain ⟨items, hitems, hstatements, hskips⟩ := items_eq h p
    obtain ⟨more, hmore, hstatements', hskips'⟩ := ih
    refine ⟨.statement p.marker :: items ++ more, ?_, ?_, ?_⟩
    · simp only [runPhases, hitems, hmore]
      rfl
    · simp [List.filterMap_append, hstatements, hstatements', Source.text]
    · simp [List.filterMap_append, List.filterMap_cons, hskips, hskips']

/-- An entity that emits a statement is not scripted to emit a list. -/
private theorem any_emitsList_eq_false {α : Type} {s : Store (Entry α)}
    {emit : α → Except Failure Emission}
    (h : ∀ e ∈ s.toList, ∃ t, e.elim emit (fun s => s.emission.run) = .ok (.statement t)) :
    s.toList.any Entry.emitsList = false := by
  rw [List.any_eq_false]
  intro e he
  obtain ⟨t, ht⟩ := h e he
  cases e with
  | configured a => exact Bool.false_ne_true
  | scripted s =>
    -- A script that emits a list or fails would not emit a statement.
    cases hs : s.emission with
    | statement _ => simp [Entry.emitsList, Entry.elim, hs, Emission.isList]
    | statements ts => simp [Entry.elim, hs, Emission.run] at ht
    | failure m => simp [Entry.elim, hs, Emission.run] at ht

/-- Where everything can be written, no script emits a list of statements. -/
private theorem emitsList_eq_false (h : r.Emits) : r.emitsList = false := by
  -- Accounts may emit lists; the other kinds emit one statement each.
  have hsettings : r.settings.toList.any Entry.emitsList = false :=
    any_emitsList_eq_false fun _ he =>
      h.statement .setting (by decide) _ (List.mem_map_of_mem he)
  have hpermissions : r.permissions.toList.any Entry.emitsList = false :=
    any_emitsList_eq_false fun _ he =>
      h.statement .permission (by decide) _ (List.mem_map_of_mem he)
  have hgroups : r.groups.toList.any Entry.emitsList = false :=
    any_emitsList_eq_false fun _ he => h.statement .group (by decide) _ (List.mem_map_of_mem he)
  have hroles : r.roles.toList.any Entry.emitsList = false :=
    any_emitsList_eq_false fun _ he => h.statement .role (by decide) _ (List.mem_map_of_mem he)
  rw [emitsList, hsettings, hpermissions, hgroups, hroles]
  rfl

/-- A compilation writes the statements of its sources, except for blank ones, and reports the
references that lead nowhere. -/
theorem compile_eq_sources (h : r.Emits) :
    r.compile.result = .ok
      ⟨(r.sources.map (Source.text r.names)).filter fun s => !Text.isBlank s,
        (Relation.all.flatMap r.missing).map fun v => v.reference.diagnostic⟩ := by
  obtain ⟨items, hitems, hstatements, hskips⟩ := runPhases_eq h Phase.all
  simp only [compile, hitems, emitsList_eq_false h, Bool.false_eq_true, ↓reduceIte,
    Compilation.ofItems, hstatements, hskips, flatMap_skips_all, List.map_map]
  rfl

/-- A marker is not blank. -/
theorem isBlank_marker (p : Phase) : Text.isBlank p.marker = false := by
  have hdash : Text.isBlankChar '-' = false := by decide
  simp [Text.isBlank, Phase.marker, hdash]

end Registry

end AccessGraph
