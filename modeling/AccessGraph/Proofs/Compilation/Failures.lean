import AccessGraph.Compilation.Script
import AccessGraph.Proofs.Calendar.Range
import AccessGraph.Proofs.Entity.Rows
import AccessGraph.Proofs.Json.Keys
import AccessGraph.Proofs.Registry.Reachable
import Mathlib.Data.List.Basic

/-!
# When a compilation fails

`Registry.fallible` lists the values that a compilation writes as JSON or as time stamps, in the
order in which they are written, and `Value.fault?` says what is wrong with such a value.  A
compilation of a reachable registry fails with the first fault in that list and with nothing else
(`Registry.failure?_compile`).  The list has neither the references of the graph nor the terms on
which groups are attached to roles.
-/

namespace AccessGraph

open Sql (LiteralFault)

/-- Whether a link is an override, the one sort of link that is written with fields of its own. -/
def Link.isOverride : Link → Bool
  | .override _ _ _ _ => true
  | _ => false

/-! ## Faults of values -/

/-- What is wrong with a value that is to be written as JSON or, if it is a moment, as a time stamp:
a key inside it that has no JSON form, or a form in UTC outside the years 1 to 9999. -/
def Value.fault? : Value → Option LiteralFault
  | .moment m =>
    if m.isAware = true ∧ ¬ Moment.InYears m.instant then some .outOfRange else none
  | v => (Json.badKey? v.innerKeys).map .key

/-- The first fault of several values. -/
def firstFault? (vs : List Value) : Option LiteralFault := vs.findSome? Value.fault?

@[simp] theorem firstFault?_nil : firstFault? [] = none := rfl

@[simp] theorem firstFault?_cons (v : Value) (vs : List Value) :
    firstFault? (v :: vs) = v.fault?.or (firstFault? vs) := by
  rw [firstFault?, List.findSome?_cons]
  cases v.fault? <;> rfl

theorem firstFault?_append (vs ws : List Value) :
    firstFault? (vs ++ ws) = (firstFault? vs).or (firstFault? ws) := List.findSome?_append

/-- The first fault among values that are listed member by member. -/
private theorem firstFault?_flatMap {α : Type} (as : List α) (f : α → List Value) :
    firstFault? (as.flatMap f) = as.findSome? fun a => firstFault? (f a) := by
  induction as with
  | nil => rfl
  | cons a as ih =>
    rw [List.flatMap_cons, firstFault?_append, ih, List.findSome?_cons]
    cases firstFault? (f a) <;> rfl

/-- Something is wrong with one of several values just when a key inside one of them has no JSON
form or one of them is a moment that has no form in UTC. -/
private theorem firstFault?_ne_none_iff {vs : List Value} :
    firstFault? vs ≠ none ↔
      (∃ v ∈ vs, ∃ k ∈ v.innerKeys, k.isJsonKey = false) ∨
        ∃ m, .moment m ∈ vs ∧ m.isAware = true ∧ ¬ Moment.InYears m.instant := by
  -- One value is at fault for a bad key in it, or as a moment out of range.
  have hone : ∀ v : Value, v.fault? ≠ none ↔ (∃ k ∈ v.innerKeys, k.isJsonKey = false) ∨
      ∃ m, v = .moment m ∧ m.isAware = true ∧ ¬ Moment.InYears m.instant := by
    intro v
    cases v <;> simp [Value.fault?, Json.badKey?_eq_none_iff, Value.innerKeys]
  have hsome : firstFault? vs ≠ none ↔ ∃ v ∈ vs, v.fault? ≠ none := by
    simp [firstFault?]
  rw [hsome]
  constructor
  · rintro ⟨v, hv, hfault⟩
    rcases (hone v).mp hfault with hkey | ⟨m, rfl, hm⟩
    · exact .inl ⟨v, hv, hkey⟩
    · exact .inr ⟨m, hv, hm⟩
  · rintro (⟨v, hv, hkey⟩ | ⟨m, hv, hm⟩)
    · exact ⟨v, hv, (hone v).mpr (.inl hkey)⟩
    · exact ⟨_, hv, (hone _).mpr (.inr ⟨m, rfl, hm⟩)⟩

/-! ## Faults of literals -/

namespace Sql

/-- A value that does not count as present is written as the empty object, and has no keys that
could fail. -/
theorem failure?_json (v : Value) :
    failure? (json v) = (Json.badKey? v.innerKeys).map .key := by
  have hkeys : (if v.isTruthy then v else .dictionary []).innerKeys = v.innerKeys := by
    by_cases hv : v.isTruthy = true
    · rw [if_pos hv]
    · have hnil : v.innerKeys = [] := Value.innerKeys_eq_nil (by simpa using hv)
      rw [if_neg hv, hnil]
      rfl
  rw [← hkeys, ← Json.failure?_encode, json]
  cases Json.encode (if v.isTruthy then v else .dictionary []) <;> rfl

/-- A table has no literal for the reason that the first of its values has none. -/
theorem failure?_jsonTable (t : Table) : failure? (jsonTable t) = (Value.ofTable t).fault? :=
  failure?_json (.ofTable t)

/-- The same of a table that may be absent. -/
private theorem failure?_jsonOption (t : Option Table) :
    failure? (jsonOption t) = (optionTable t).fault? := by
  cases t with
  | none => rfl
  | some t => exact failure?_json (.ofTable t)

/-- The literal of a moment fails with the fault of the moment as a value. -/
theorem failure?_timestamp (m : Option Moment) :
    failure? (timestamp m) = (momentValue m).fault? := by
  cases m with
  | none => rfl
  | some m =>
    show failure? (timestamp (some m)) = Value.fault? (.moment m)
    simp only [Value.fault?, ← Moment.utc?_eq_none_iff, timestamp]
    cases m.utc? <;> rfl

end Sql

/-! ## Faults of rows -/

/-- The ends of a window, which are written as time stamps. -/
def ValidityWindow.stamps (w : ValidityWindow) : List Value :=
  [momentValue w.validFrom, momentValue w.validUntil]

/-- The fields of a permission that are written as JSON. -/
def PermissionConfig.fallible : PermissionConfig → List Value
  | .system p => [.ofTable p.metadata]
  | .data p => [optionTable p.constraints, optionTable p.conditions, .ofTable p.metadata]

/-- The fields of a group that are written as JSON. -/
def GroupConfig.fallible (c : GroupConfig) : List Value := [.ofTable c.metadata]

/-- The fields of a role that are written as JSON or as time stamps. -/
def RoleConfig.fallible (c : RoleConfig) : List Value := .ofTable c.metadata :: c.window.stamps

/-- The fields of an account that are written as JSON. -/
def AccountConfig.fallible (c : AccountConfig) : List Value := [.ofTable c.metadata]

/-- The fields of an override that are written as JSON or as time stamps. -/
def Override.fallible (o : Override) : List Value := o.window.stamps ++ [.ofTable o.metadata]

/-! Each row fails with the first fault among its fields: they are written one after another, and
what is written for one field has no part in the failure of another. -/

/-- The row of a permission fails with the first fault of its configuration. -/
private theorem Permission.failure?_row (names : Names) (p : Permission) :
    failure? (p.row names) = firstFault? p.config.fallible := by
  obtain ⟨id, c⟩ := p
  cases c with
  | system c =>
    show failure? (c.row names) = _
    simp only [PermissionConfig.fallible, firstFault?_cons, firstFault?_nil,
      ← Sql.failure?_jsonTable]
    exact failure?_bind fun _ => rfl
  | data c =>
    show failure? (c.row names) = _
    simp only [PermissionConfig.fallible, firstFault?_cons, firstFault?_nil,
      ← Sql.failure?_jsonTable, ← Sql.failure?_jsonOption]
    -- The three literals are made in the order of the fallible values.
    exact failure?_bind fun _ => failure?_bind fun _ => failure?_bind fun _ => rfl

private theorem Group.failure?_row (names : Names) (g : Group) :
    failure? (g.row names) = firstFault? g.config.fallible := by
  simp only [GroupConfig.fallible, firstFault?_cons, firstFault?_nil, ← Sql.failure?_jsonTable]
  exact failure?_bind fun _ => rfl

private theorem Role.failure?_row (names : Names) (o : Role) :
    failure? (o.row names) = firstFault? o.config.fallible := by
  simp only [RoleConfig.fallible, ValidityWindow.stamps, firstFault?_cons, firstFault?_nil,
    ← Sql.failure?_jsonTable, ← Sql.failure?_timestamp]
  exact failure?_bind fun _ => failure?_bind fun _ => failure?_bind fun _ => rfl

/-- The statements of an account fail with the first fault of its configuration. -/
theorem Account.failure?_statements (names : Names) (a : Account) :
    failure? (a.statements names) = firstFault? a.config.fallible := by
  have hrow : failure? (a.row names) = firstFault? a.config.fallible := by
    simp only [AccountConfig.fallible, firstFault?_cons, firstFault?_nil,
      ← Sql.failure?_jsonTable]
    exact failure?_bind fun _ => rfl
  rw [← hrow, statements, failure?_bind fun _ => failure?_pure _, Option.or_none]

/-- The row of an override fails with the first fault of the override. -/
theorem Override.failure?_row (names : Names) (account : String) (o : Override) :
    failure? (o.row names account) = firstFault? o.fallible := by
  simp only [Override.fallible, ValidityWindow.stamps, List.cons_append, List.nil_append,
    firstFault?_cons, firstFault?_nil, ← Sql.failure?_jsonTable, ← Sql.failure?_timestamp]
  exact failure?_bind fun _ => failure?_bind fun _ => failure?_bind fun _ => rfl

/-- Setting out a row over columns adds no failure of its own. -/
theorem failure?_spreadRow (row : Except LiteralFault Sql.Row) :
    failure? (spreadRow row) = (failure? row).map .literal := by
  cases row <;> rfl

/-- What keeps a permission from being written. -/
theorem Permission.failure?_emit (names : Names) (p : Permission) :
    failure? (emit names (.configured p)) = (firstFault? p.config.fallible).map .literal := by
  rw [← p.failure?_row names, ← failure?_spreadRow]
  rfl

theorem Group.failure?_emit (names : Names) (g : Group) :
    failure? (emit names (.configured g)) = (firstFault? g.config.fallible).map .literal := by
  rw [← g.failure?_row names, ← failure?_spreadRow]
  rfl

theorem Role.failure?_emit (names : Names) (o : Role) :
    failure? (emit names (.configured o)) = (firstFault? o.config.fallible).map .literal := by
  rw [← o.failure?_row names, ← failure?_spreadRow]
  rfl

theorem Account.failure?_emit (names : Names) (a : Account) :
    failure? (emit names (.configured a)) = (firstFault? a.config.fallible).map .literal := by
  rw [← a.failure?_statements names]
  simp only [emit, Entry.elim]
  cases a.statements names <;> rfl

/-! ## Faults of phases -/

/-- Either part of an emission fails as the whole does. -/
private theorem failure?_emitted (split : Emission → List String) (e : Except Failure Emission) :
    failure? (emitted split e) = failure? e := failure?_map e _

/-- A step on the members of a list fails with the first failure on one of them. -/
theorem failure?_gather {ε α β : Type} (f : α → Except ε (List β)) (as : List α) :
    failure? (gather f as) = as.findSome? fun a => failure? (f a) := by
  induction as with
  | nil => rfl
  | cons a as ih =>
    rw [gather, List.findSome?_cons]
    cases f a with
    | error e => rfl
    | ok bs => rw [failure?_map]; exact ih

/-- Where each member fails with the first fault among its fields, a list of members fails with the
first fault among the fields of all. -/
private theorem failure?_gather_eq {α β : Type} {f : α → Except Failure (List β)}
    {fields : α → List Value} {as : List α}
    (h : ∀ a ∈ as, failure? (f a) = (firstFault? (fields a)).map .literal) :
    failure? (gather f as) = (firstFault? (as.flatMap fields)).map .literal := by
  rw [failure?_gather, firstFault?_flatMap, List.map_findSome?]
  exact findSome?_congr h

namespace Registry

variable {r : Registry}

/-- The fields that a phase writes as JSON or as time stamps, in the order in which it writes
them. -/
def fallibleIn (r : Registry) : Phase → List Value
  | .permissions => r.permissions.toList.flatMap (Entry.elim (·.config.fallible) fun _ => [])
  | .groups => r.groups.toList.flatMap (Entry.elim (·.config.fallible) fun _ => [])
  | .roles => r.roles.toList.flatMap (Entry.elim (·.config.fallible) fun _ => [])
  | .accounts => r.accounts.toList.flatMap (Entry.elim (·.config.fallible) fun _ => [])
  | .overrides => r.accounts.toList.flatMap fun a => a.accountOverrides.flatMap Override.fallible
  | .settings | .groupPermissions | .rolePermissions | .roleGroups | .accountRoles => []

/-- The fields that a compilation writes as JSON or as time stamps, in the order in which it writes
them. -/
def fallible (r : Registry) : List Value := Phase.all.flatMap r.fallibleIn

/-- Without scripts, a phase fails with the first fault among its fields. -/
theorem failure?_items (h : r.Sound) (p : Phase) :
    failure? (r.items p) = (firstFault? (r.fallibleIn p)).map .literal := by
  cases p with
  | settings =>
    have hnone : ∀ e ∈ r.settings.toList,
        failure? (emitted Emission.texts (Setting.emit r.names e)) = none := by
      intro e he
      -- A setting has neither JSON nor time stamps.
      obtain ⟨s, rfl, -⟩ := h.settings.mem_toList he
      rfl
    rw [items, failure?_gather]
    exact List.findSome?_eq_none_iff.mpr hnone
  | permissions =>
    refine failure?_gather_eq fun e he => ?_
    obtain ⟨p, rfl, -⟩ := h.permissions.mem_toList he
    rw [failure?_emitted]
    exact p.failure?_emit r.names
  | groups =>
    refine failure?_gather_eq fun e he => ?_
    obtain ⟨g, rfl, -⟩ := h.groups.mem_toList he
    rw [failure?_emitted]
    exact g.failure?_emit r.names
  | roles =>
    refine failure?_gather_eq fun e he => ?_
    obtain ⟨o, rfl, -⟩ := h.roles.mem_toList he
    rw [failure?_emitted]
    exact o.failure?_emit r.names
  | accounts =>
    refine failure?_gather_eq fun e he => ?_
    obtain ⟨a, rfl, -⟩ := h.accounts.mem_toList he
    rw [failure?_emitted]
    exact a.failure?_emit r.names
  | overrides =>
    -- The overrides of one account are a list inside the list of the accounts.
    refine failure?_gather_eq fun a _ => failure?_gather_eq fun o _ => ?_
    rw [overrideItem, failure?_emitted, failure?_spreadRow, Override.failure?_row]
  | groupPermissions => rfl
  | rolePermissions => rfl
  | roleGroups => rfl
  | accountRoles => rfl

/-! ## Faults of a compilation -/

/-- A run of phases fails with what the first phase that fails does, as the phases do not depend on
one another. -/
theorem failure?_runPhases (r : Registry) (ps : List Phase) :
    failure? (r.runPhases ps).2 = ps.findSome? fun p => failure? (r.items p) := by
  induction ps with
  | nil => rfl
  | cons p ps ih =>
    rw [runPhases, List.findSome?_cons]
    cases r.items p with
    | error e => rfl
    | ok items => rw [failure?_map]; exact ih

/-- Without scripts no entity emits a list where a statement is due. -/
private theorem Sound.emitsList_eq_false (h : r.Sound) : r.emitsList = false := by
  simp only [emitsList, Bool.or_eq_false_iff, List.any_eq_false]
  refine ⟨⟨⟨fun e he => ?_, fun e he => ?_⟩, fun e he => ?_⟩, fun e he => ?_⟩
  · obtain ⟨_, rfl, -⟩ := h.settings.mem_toList he
    exact Bool.false_ne_true
  · obtain ⟨_, rfl, -⟩ := h.permissions.mem_toList he
    exact Bool.false_ne_true
  · obtain ⟨_, rfl, -⟩ := h.groups.mem_toList he
    exact Bool.false_ne_true
  · obtain ⟨_, rfl, -⟩ := h.roles.mem_toList he
    exact Bool.false_ne_true

/-- A compilation without scripts fails with the first fault among the fields it writes. -/
theorem failure?_compile (h : r.Sound) :
    failure? r.compile.result
      = (firstFault? r.fallible).map fun fault => .compilation (.literal fault) := by
  have hphases : failure? (r.runPhases Phase.all).2 = (firstFault? r.fallible).map .literal := by
    rw [failure?_runPhases, fallible, firstFault?_flatMap, List.map_findSome?]
    exact findSome?_congr fun p _ => failure?_items h p
  -- Once all phases have run, only a list in the place of a statement could make it fail.
  have hresult : failure? r.compile.result
      = (failure? (r.runPhases Phase.all).2).map .compilation := by
    simp only [compile, h.emitsList_eq_false, Bool.false_eq_true, ↓reduceIte]
    cases (r.runPhases Phase.all).2 <;> rfl
  rw [hresult, hphases, Option.map_map]
  rfl

/-! ## Links -/

/-- A change of entities that keeps their fields keeps the fields of the store. -/
private theorem flatMap_toList_modify {α β : Type} (s : Store α) (k : String) {f : α → α}
    {fields : α → List β} (h : ∀ a, fields (f a) = fields a) :
    (s.modify k f).toList.flatMap fields = s.toList.flatMap fields := by
  rw [List.flatMap_def, List.flatMap_def, Store.map_toList_modify s k h]

/-- Changes to groups that leave their configurations alone add no fault. -/
private theorem fallible_modifyGroup (r : Registry) (id : String) {f : Group → Group}
    (hf : ∀ g, (f g).config = g.config) : (r.modifyGroup id f).fallible = r.fallible := by
  refine List.flatMap_congr fun p _ => ?_
  cases p with
  | groups =>
    exact flatMap_toList_modify r.groups id fun e => by
      cases e <;> simp [Entry.elim, Entry.map, hf]
  | _ => rfl

/-- Changes to roles that leave their configurations alone add no fault. -/
private theorem fallible_modifyRole (r : Registry) (id : String) {f : Role → Role}
    (hf : ∀ o, (f o).config = o.config) : (r.modifyRole id f).fallible = r.fallible := by
  refine List.flatMap_congr fun p _ => ?_
  cases p with
  | roles =>
    exact flatMap_toList_modify r.roles id fun e => by
      cases e <;> simp [Entry.elim, Entry.map, hf]
  | _ => rfl

/-- Changes to accounts that leave configurations and overrides alone add no fault. -/
private theorem fallible_modifyAccount (r : Registry) (id : String) {f : Account → Account}
    (hf : ∀ a, (f a).config = a.config) (ho : ∀ a, (f a).overrides = a.overrides) :
    (r.modifyAccount id f).fallible = r.fallible := by
  -- Two phases read accounts: one their configurations, the other their overrides.
  refine List.flatMap_congr fun p _ => ?_
  cases p with
  | accounts =>
    exact flatMap_toList_modify r.accounts id fun e => by
      cases e <;> simp [Entry.elim, Entry.map, hf]
  | overrides =>
    exact flatMap_toList_modify r.accounts id fun e => by
      cases e <;> simp [Entry.accountOverrides, Entry.elim, Entry.map, ho]
  | _ => rfl

/-- A link other than an override adds nothing that is written as JSON or as a time stamp, on
whatever terms it is made. -/
private theorem fallible_link {t : Registry} {l : Link} (hl : l.isOverride = false)
    (h : r.link l = .ok t) :
    t.fallible = r.fallible := by
  -- Each link adds to a list that no fallible value is in, but for an override.
  cases l with
  | groupPermission id v =>
    obtain ⟨_, -, h⟩ := Except.bind_eq_ok.mp h
    obtain rfl := Except.ok.inj h
    exact fallible_modifyGroup r id fun _ => rfl
  | rolePermission id v =>
    obtain ⟨_, -, h⟩ := Except.bind_eq_ok.mp h
    obtain rfl := Except.ok.inj h
    exact fallible_modifyRole r id fun _ => rfl
  | roleGroup id v terms =>
    obtain ⟨_, -, h⟩ := Except.bind_eq_ok.mp h
    obtain ⟨_, -, h⟩ := Except.bind_eq_ok.mp h
    obtain rfl := Except.ok.inj h
    exact fallible_modifyRole r id fun _ => rfl
  | accountRole id v =>
    obtain ⟨_, -, h⟩ := Except.bind_eq_ok.mp h
    obtain rfl := Except.ok.inj h
    exact fallible_modifyAccount r id (fun _ => rfl) fun _ => rfl
  | override id isGrant v terms => exact Bool.noConfusion hl

/-! ## The failures of reachable registries -/

/-- A compilation of a reachable registry fails just when a table that it writes has a key without a
JSON form, at whatever depth, or an end of the window of a role or an override has an offset and no
form in UTC.  It fails with the first such fault in the order of writing.  Links other than
overrides have no part in it, whatever they refer to and on whatever terms they are made. -/
theorem compile_fails_iff (h : r.Built) :
    ((∃ e, r.compile.result = .error e) ↔
      (∃ v ∈ r.fallible, ∃ k ∈ v.innerKeys, k.isJsonKey = false) ∨
        ∃ m, .moment m ∈ r.fallible ∧ m.isAware = true ∧ ¬ Moment.InYears m.instant) ∧
    (∀ e, r.compile.result = .error e ↔
      ∃ before v after fault, r.fallible = before ++ v :: after ∧
        (∀ w ∈ before, w.fault? = none) ∧ v.fault? = some fault ∧
        e = .compilation (.literal fault) ∧
        e.message = "Error generating SQL: " ++ fault.message) ∧
    ∀ l t, r.link l = .ok t → l.isOverride = false →
      ∀ e, t.compile.result = .error e ↔ r.compile.result = .error e := by
  have hfails := failure?_compile h.sound
  refine ⟨?_, ?_, ?_⟩
  · rw [← firstFault?_ne_none_iff]
    constructor
    · rintro ⟨e, he⟩ hnone
      rw [he, hnone] at hfails
      exact absurd hfails (by simp)
    · intro hfault
      obtain ⟨fault, hfault⟩ := Option.ne_none_iff_exists'.mp hfault
      rw [hfault] at hfails
      exact ⟨_, failure?_eq_some.mp hfails⟩
  · -- The first fault splits the values where the search for it stops.
    intro e
    rw [← failure?_eq_some, hfails, Option.map_eq_some_iff]
    constructor
    · rintro ⟨fault, hfault, rfl⟩
      obtain ⟨before, v, after, hsplit, hv, hbefore⟩ := List.findSome?_eq_some_iff.mp hfault
      exact ⟨before, v, after, fault, hsplit, hbefore, hv, rfl, rfl⟩
    · rintro ⟨before, v, after, fault, hsplit, hbefore, hv, rfl, -⟩
      exact ⟨fault, List.findSome?_eq_some_iff.mpr ⟨before, v, after, hsplit, hv, hbefore⟩, rfl⟩
  · -- A link leaves the fallible values, and they alone decide.
    intro l t hlink hl e
    rw [← failure?_eq_some, ← failure?_eq_some, hfails, failure?_compile (h.link hlink).sound,
      fallible_link hl hlink]

/-- The first moment of the year 1 an hour east of UTC, where it is still the year before. -/
def early : Value :=
  .moment ⟨⟨1, 1, 1, rfl⟩, .midnight, some (.given ⟨3600, by decide⟩), false⟩

/-- A table with a tuple as a key, two lists deep. -/
def oddTable : Value :=
  .dictionary [(.text "tags", .list [.list [.dictionary [(.tuple [], .null)]]])]

/-- A graph with a role whose window begins too early and an account whose metadata have no JSON
form. -/
def strained : Registry :=
  ((empty ⟨"access", "auth"⟩).run
    [.define (.role "r" (.ofTable [("name", .text "clerk"), ("valid_from", early)])),
      .define (.account (.text "a") (.ofTable [("metadata", oddTable)]))]).1

/-- The first fault of the graph is the window of the role.  It stays so when a group that is not
registered is attached to the role on terms that could not be written. -/
theorem compile_strained :
    strained.Built ∧ strained.compile.result = .error (.compilation (.literal .outOfRange)) ∧
      ∃ t, strained.link (.roleGroup "r" (.text "gone") ⟨early, .null, oddTable⟩) = .ok t ∧
        t.compile.result = .error (.compilation (.literal .outOfRange)) := by
  have hbuilt : strained.Built := built_empty.run (by simp)
  obtain ⟨-, hfirst, hlink⟩ := compile_fails_iff hbuilt
  have hfails : strained.compile.result = .error (.compilation (.literal .outOfRange)) := by
    -- The metadata of the role come first, and nothing is wrong with them.
    refine (hfirst _).mpr ⟨strained.fallible.take 1, early, strained.fallible.drop 2, .outOfRange,
      rfl, by decide +kernel, rfl, rfl, rfl⟩
  have hok : (strained.link (.roleGroup "r" (.text "gone") ⟨early, .null, oddTable⟩)).isOk := by
    decide +kernel
  obtain ⟨t, ht⟩ := Except.exists_of_isOk hok
  exact ⟨hbuilt, hfails, t, ht, (hlink _ _ ht rfl _).mpr hfails⟩

end Registry

end AccessGraph
