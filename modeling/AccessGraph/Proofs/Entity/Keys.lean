import AccessGraph.Proofs.Entity.Fidelity
import Mathlib.Data.List.Nodup

/-!
# What keys find

A subquery finds the rows of a table that hold a text in a column.  `NaturalKey.finds` reads a
statement as an insertion and tells whether the inserted row is found; `subqueries` lists the keys
by which the columns of an inserted row refer to other rows.

Of the statements that an entity emits, its own key finds exactly one, and no other key finds any
(`Entity.Sound.filter_finds`).
-/

namespace AccessGraph

open Sql (Insertion)

/-! ## Reading keys -/

/-- The table that a statement inserts into. -/
def insertedTable? (s : String) : Option String := (Insertion.read? s).map Insertion.table

/-- Whether a statement inserts a row that the key finds. -/
def NaturalKey.finds (k : NaturalKey) (s : String) : Bool :=
  match Insertion.read? s with
  | some i => decide (i.table = k.table ∧ (k.column, some (.text k.value)) ∈ i.contents)
  | none => false

/-- The key by which a column refers to a row, if it does. -/
def Content.key? : Content → Option NaturalKey
  | .row table column value => some ⟨table, column, value⟩
  | _ => none

/-- The keys by which the columns of an inserted row refer to other rows. -/
def subqueries (s : String) : List NaturalKey :=
  match Insertion.read? s with
  | some i => i.contents.filterMap fun x => x.2.bind Content.key?
  | none => []

/-- A field is never held as a reference. -/
private theorem key?_ofField (column : String) (v : Value) :
    (Content.ofField column v).bind Content.key? = none := by
  unfold Content.ofField
  split
  · rfl
  · split <;> rfl
  · rfl
  · rfl
  · rfl
  · rfl
  · split <;> rfl

/-- No field of a configuration is a look-up. -/
theorem filterMap_key?_ofFields (fields : Table) :
    ((Content.ofFields fields).filterMap fun x => x.2.bind Content.key?) = [] := by
  rw [List.filterMap_eq_nil_iff]
  intro x hx
  obtain ⟨f, -, rfl⟩ := List.mem_map.mp hx
  exact key?_ofField f.1 f.2

section

variable {s table : String} {contents : List (String × Option Content)}

/-- A statement that inserts reads as one into its table. -/
theorem Inserts.insertedTable? (h : Inserts s table contents) :
    insertedTable? s = some table := by
  obtain ⟨i, hread, rfl, -⟩ := h
  rw [AccessGraph.insertedTable?, hread]
  rfl

/-- The look-ups in a statement that inserts are those among its contents. -/
theorem Inserts.subqueries (h : Inserts s table contents) :
    subqueries s = contents.filterMap fun x => x.2.bind Content.key? := by
  obtain ⟨i, hread, -, -, rfl, -⟩ := h
  rw [AccessGraph.subqueries, hread]

/-- What a key finds is inserted into the table of the key. -/
theorem NaturalKey.insertedTable?_of_finds {k : NaturalKey} (h : k.finds s = true) :
    insertedTable? s = some k.table := by
  unfold finds at h
  split at h
  · next i hread =>
    rw [insertedTable?, hread, ← (of_decide_eq_true h).1]
    rfl
  · exact absurd h Bool.false_ne_true

end

/-! ## Keys of records -/

section

variable {texts : List String} {table : String} {fields : List (String × Option Content)}

/-- A record is found by the texts among its fields, and by nothing else. -/
theorem Records.filter_finds (h : Records texts table fields) :
    ∃ row ∈ texts, ∀ k : NaturalKey, texts.filter k.finds =
      if table = k.table ∧ (k.column, some (.text k.value)) ∈ fields then [row] else [] := by
  obtain ⟨i, hread, htable, -, -, hperm, -⟩ := h
  obtain ⟨before, row, behind, rfl, hbefore, hrow, hbehind⟩ :=
    List.filterMap_eq_cons_iff.mp hread
  refine ⟨row, by simp, fun k => ?_⟩
  -- What inserts nothing is found by no key, so only the one row counts.
  have hnone : ∀ ts : List String, (∀ t ∈ ts, Insertion.read? t = none) →
      ts.filter k.finds = [] := by
    intro ts hts
    rw [List.filter_eq_nil_iff]
    intro t ht
    simp [NaturalKey.finds, hts t ht]
  have hfinds : k.finds row
      = decide (table = k.table ∧ (k.column, some (.text k.value)) ∈ fields) := by
    simp only [NaturalKey.finds, hrow, htable, hperm.mem_iff]
  rw [List.filter_append, hnone before hbefore, List.filter_cons, hfinds,
    hnone behind (List.filterMap_eq_nil_iff.mp hbehind)]
  simp

/-- Whatever of a record is inserted goes into the table of the record. -/
theorem Records.table_eq (h : Records texts table fields) {s t : String} (hs : s ∈ texts)
    (ht : insertedTable? s = some t) : t = table := by
  obtain ⟨i, hread, rfl, -⟩ := h
  obtain ⟨j, hj, rfl⟩ := Option.map_eq_some_iff.mp ht
  have hmem : j ∈ texts.filterMap Insertion.read? := List.mem_filterMap.mpr ⟨s, hs, hj⟩
  rw [hread] at hmem
  rw [List.mem_singleton.mp hmem]

end

/-! ## Keys of entities -/

/-- Tables of one schema are told apart by their own names. -/
theorem Names.table_inj (names : Names) {s t : String} :
    names.table s = names.table t ↔ s = t := String.append_right_inj _

/-- Each kind of entity has a table of its own. -/
theorem Kind.table_inj {a b : Kind} : a.table = b.table ↔ a = b := by
  refine ⟨fun h => ?_, fun h => h ▸ rfl⟩
  revert h
  cases a <;> cases b <;> decide

/-- A column with a text that may not be absent holds just that text. -/
private theorem mem_ofFields {fields : Table} {column s value : String}
    (h : (column, .text s) ∈ fields) (hnodup : (fields.map Prod.fst).Nodup)
    (hc : column ∉ Content.optionalColumns) :
    (column, some (.text value)) ∈ Content.ofFields fields ↔ s = value := by
  have hfield : Content.ofField column (.text s) = some (.text s) := by
    simp [Content.ofField, hc]
  refine ⟨fun hmem => ?_, fun heq => ?_⟩
  · obtain ⟨f, hf, heq⟩ := List.mem_map.mp hmem
    obtain ⟨hcolumn, hcontent⟩ := Prod.mk.inj heq
    -- No other field has the name of the column.
    obtain rfl := List.inj_on_of_nodup_map hnodup hf h hcolumn
    rw [hfield] at hcontent
    exact Content.text.inj (Option.some.inj hcontent)
  · subst heq
    exact List.mem_map.mpr ⟨_, h, by rw [hfield]⟩

namespace Entity

/-- The text by which an entity is found among those of its kind. -/
def keyText : Entity → String
  | .setting e => e.settingKey.text
  | .permission e => e.permissionName
  | .group e => e.groupName
  | .role e => e.roleName
  | .account e => e.accountId.text

/-- The key by which the row of an entity is found. -/
def key (names : Names) (e : Entity) : NaturalKey := e.kind.key names e.keyText

/-- What is registered by definitions is looked up by its key. -/
theorem Sound.lookup?_eq {e : Entity} (he : e.Sound) (hkind : e.kind ≠ .setting)
    (names : Names) : e.lookup? names = some (e.key names).subquery := by
  cases he with
  | setting s _ => exact absurd rfl hkind
  | permission p _ => rfl
  | group g _ => rfl
  | role o _ => rfl
  | account a _ => rfl

/-- The column of the key holds the text of the key. -/
private theorem mem_fields {e : Entity} {fields : Table} (h : e.fields? = some fields)
    (value : String) :
    (e.kind.keyColumn, some (.text value)) ∈ Content.ofFields fields ↔ e.keyText = value := by
  have hc : e.kind.keyColumn ∉ Content.optionalColumns := by
    cases e.kind <;> decide
  unfold fields? at h
  -- The key stands first among the fields, but behind the tag of a permission or the window of a
  -- role.
  split at h
  · obtain rfl := Option.some.inj h
    exact mem_ofFields List.mem_cons_self (by simp) hc
  · next p =>
    obtain rfl := Option.some.inj h
    obtain ⟨id, c | c⟩ := p
    · exact mem_ofFields (List.mem_cons_of_mem _ List.mem_cons_self)
        (by simp [PermissionConfig.config, Config.fields, SystemPermission.fields, tagField]) hc
    · exact mem_ofFields (List.mem_cons_of_mem _ List.mem_cons_self)
        (by simp [PermissionConfig.config, Config.fields, DataPermission.fields, tagField]) hc
  · obtain rfl := Option.some.inj h
    exact mem_ofFields List.mem_cons_self (by simp [GroupConfig.fields]) hc
  · obtain rfl := Option.some.inj h
    exact mem_ofFields (List.mem_append_right _ List.mem_cons_self)
      (by simp [RoleConfig.fields, ValidityWindow.fields]) hc
  · obtain rfl := Option.some.inj h
    exact mem_ofFields List.mem_cons_self (by simp [AccountConfig.fields]) hc
  · exact absurd h (by simp)

/-- Of what an entity emits, one statement is found by its own key; other keys of entities find
nothing. -/
theorem Sound.filter_finds {names : Names} (hn : isSchemaName names.schema = true) {e : Entity}
    (he : e.Sound) {emission : Emission} (h : e.emit names = .ok emission) :
    ∃ row ∈ emission.texts, ∀ kind value,
      emission.texts.filter (Kind.key names kind value).finds
        = if e.kind = kind ∧ e.keyText = value then [row] else [] := by
  obtain ⟨fields, hfields, hrecords⟩ := he.records hn h
  obtain ⟨row, hrow, hfilter⟩ := hrecords.filter_finds
  refine ⟨row, hrow, fun kind value => ?_⟩
  rw [hfilter]
  -- The table tells the kind, and the contents tell the value of the key.
  have htable : names.table e.kind.table = names.table kind.table ↔ e.kind = kind :=
    names.table_inj.trans Kind.table_inj
  have hiff : (names.table e.kind.table = (kind.key names value).table ∧
      ((kind.key names value).column, some (.text (kind.key names value).value))
        ∈ Content.ofFields fields) ↔ e.kind = kind ∧ e.keyText = value := by
    refine ⟨?_, ?_⟩
    · intro h
      obtain ⟨ht, hmem⟩ := h
      obtain rfl := htable.mp ht
      exact ⟨rfl, (mem_fields hfields value).mp hmem⟩
    · intro h
      obtain ⟨rfl, hvalue⟩ := h
      exact ⟨rfl, (mem_fields hfields value).mpr hvalue⟩
  exact if_congr hiff rfl rfl

end Entity

end AccessGraph
