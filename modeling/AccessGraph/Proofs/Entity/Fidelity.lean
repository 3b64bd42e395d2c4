import AccessGraph.Proofs.Entity.Rows
import AccessGraph.Registry.Entity

/-!
# Rows hold the fields of their entities

What a reachable registry emits for an entity or an override is one `INSERT` that, read back,
holds in every column the field of the same name.  `Records` compares the decoded columns with the
fields as wholes, so no column is missing, repeated or swapped with another.
-/

namespace AccessGraph

open Sql (Expr Insertion Row)

/-- One of the texts inserts a row of a table, the others insert nothing; and the columns of the
row, decoded, are the given fields. -/
def Records (texts : List String) (table : String) (fields : List (String × Option Content)) :
    Prop :=
  ∃ i, texts.filterMap Insertion.read? = [i] ∧ i.table = table ∧
    i.columns.length = i.values.length ∧ i.columns.Nodup ∧ i.contents.Perm fields ∧
    ∀ x ∈ fields, x.2.isSome = true

namespace Entity

/-- The kind. -/
def kind : Entity → Kind
  | .setting _ => .setting
  | .permission _ => .permission
  | .group _ => .group
  | .role _ => .role
  | .account _ => .account

/-- The fields that the row of a configured entity records. -/
def fields? : Entity → Option Table
  | .setting (.configured s) => some [("key", .text s.key.text), ("value", .text s.value)]
  | .permission (.configured p) => some p.config.config.fields
  | .group (.configured g) => some g.config.fields
  | .role (.configured o) => some o.config.fields
  | .account (.configured a) => some (("auth_user_id", .text a.id.text) :: a.config.fields)
  | _ => none

end Entity

/-- The fields that the row of an override of an account records: the account and the permission
stand in it as references. -/
def Override.recorded (names : Names) (account : Identifier) (o : Override) :
    List (String × Option Content) :=
  ("account_id", some (Kind.account.key names account.text).content)
    :: ("permission_id", some (Kind.permission.key names o.permissionName).content)
    :: Content.ofFields (o.fields.filter fun f => f.1 != "permission_name")

/-! ## From rows to records -/

/-- Text with another first character than an insertion inserts nothing. -/
theorem read?_eq_none {s : String} {c : Char} {cs : List Char} (hs : s.toList = c :: cs)
    (hblank : Text.isBlankChar c = false) (hc : c ≠ 'I') : Insertion.read? s = none := by
  have hskip : s.toList.dropWhile Text.isBlankChar = c :: cs := by
    rw [hs, List.dropWhile_cons_of_neg (by simp [hblank])]
  have hafter : Sql.after? "INSERT INTO ".toList (c :: cs) = none := by
    simp [Sql.after?, hc.symm]
  rw [Insertion.read?, hskip, hafter]
  rfl

/-- A statement behind texts that insert nothing records what it inserts, in any order. -/
theorem records_of_inserts {s table : String} {contents fields : List (String × Option Content)}
    (others : List String) (hothers : ∀ t ∈ others, Insertion.read? t = none)
    (h : Inserts s table contents) (hnodup : (contents.map Prod.fst).Nodup)
    (hperm : contents.Perm fields) : Records (others ++ [s]) table fields := by
  obtain ⟨i, hread, htable, hlength, hmap, hsome⟩ := h
  have hnone : others.filterMap Insertion.read? = [] := List.filterMap_eq_nil_iff.mpr hothers
  -- Columns and values pair off, so the columns are those of the contents.
  have hcolumns : contents.map Prod.fst = i.columns := by
    rw [← hmap, Insertion.contents, List.map_map]
    exact List.map_fst_zip (Nat.le_of_eq hlength)
  refine ⟨i, ?_, htable, hlength, hcolumns ▸ hnodup, hmap ▸ hperm, ?_⟩
  · rw [List.filterMap_append, hnone]
    simp [hread]
  · intro x hx
    exact hsome x (hperm.mem_iff.mpr hx)

/-- The statement that marks the external identity of an account does not read as a row. -/
private theorem Account.read?_flagStatement (names : Names) (a : Account) :
    Insertion.read? (a.flagStatement names) = none := by
  have hhead : (a.flagStatement names).toList
      = 'U' :: (a.flagStatement names).toList.tail := by simp [flagStatement]
  exact read?_eq_none hhead (by decide) (by decide)

/-! ## The order of the columns -/

/-- The third member of a list, taken to the front. -/
private theorem perm_third {α : Type} (a b c : α) (rest : List α) :
    (a :: b :: c :: rest).Perm (c :: a :: b :: rest) := by
  show ([a, b] ++ c :: rest).Perm (c :: ([a, b] ++ rest))
  exact List.perm_middle

/-- A row has the tag of a permission behind its name and description; the fields start with it. -/
private theorem SystemPermission.perm_fields (p : SystemPermission) :
    List.Perm [("name", .text p.name), ("description", optionText p.description),
      (tagField, .text "system"), ("system_resource", .label (.resource p.resource)),
      ("action", .label (.action p.action)), ("metadata", .ofTable p.metadata)] p.fields :=
  perm_third _ _ _ _

/-- The columns of a data permission are its fields, in another order. -/
private theorem DataPermission.perm_fields (p : DataPermission) :
    List.Perm [("name", .text p.name), ("description", optionText p.description),
      (tagField, .text "data"), ("scope", .label (.scope p.scope)),
      ("schema_name", optionText p.schemaName), ("table_name", optionText p.tableName),
      ("column_name", optionText p.columnName), ("action", .label (.action p.action)),
      ("constraints", optionTable p.constraints), ("conditions", optionTable p.conditions),
      ("metadata", .ofTable p.metadata)] p.fields := by
  refine (perm_third _ _ _ _).trans ?_
  -- The action stands in front of the qualifiers among the fields, and behind them in the row.
  have haction : ∀ (scope a b c action : String × Value) (rest : List (String × Value)),
      (scope :: a :: b :: c :: action :: rest).Perm (scope :: action :: a :: b :: c :: rest) := by
    intro scope a b c action rest
    show (scope :: ([a, b, c] ++ action :: rest)).Perm (scope :: action :: ([a, b, c] ++ rest))
    exact List.perm_middle.cons scope
  exact (((haction _ _ _ _ _ _).cons _).cons _).cons _

/-- A role's row ends with the validity window; its fields start with it. -/
private theorem RoleConfig.perm_fields (c : RoleConfig) :
    List.Perm [("name", .text c.name), ("description", optionText c.description),
      ("rank", .int c.rank), ("metadata", .ofTable c.metadata),
      ("valid_from", momentValue c.window.validFrom),
      ("valid_until", momentValue c.window.validUntil)] c.fields := by
  show List.Perm ([("name", .text c.name), ("description", optionText c.description),
    ("rank", .int c.rank), ("metadata", .ofTable c.metadata)] ++ c.window.fields) _
  exact List.perm_append_comm

/-- A row tells whether an override grants in front of its window. -/
private theorem Override.perm_fields (o : Override) :
    List.Perm [("is_grant", .bool o.isGrant), ("valid_from", momentValue o.window.validFrom),
      ("valid_until", momentValue o.window.validUntil), ("metadata", .ofTable o.metadata)]
      (o.fields.filter fun f => f.1 != "permission_name") :=
  (perm_third _ _ _ _).symm

/-! ## What entities emit -/

/-- A row that is set out is one statement. -/
theorem spreadRow_eq_ok {row : Except Sql.LiteralFault Row} {emission : Emission} :
    spreadRow row = .ok emission ↔ ∃ r, row = .ok r ∧ emission = .statement r.spread := by
  cases row with
  | error fault => simp [spreadRow]
  | ok r => simp [spreadRow, eq_comm]

/-- An account is written as two statements, of which the second is its row. -/
theorem Account.emit_eq_ok {names : Names} {a : Account} {emission : Emission} :
    Account.emit names (.configured a) = .ok emission ↔
      ∃ r, a.row names = .ok r ∧
        emission = .statements [a.flagStatement names, r.inline ++ ";"] := by
  simp only [Account.emit, Entry.elim, statements]
  cases a.row names with
  | error fault => simp [bind, Except.bind]
  | ok r => simp [bind, Except.bind, pure, Except.pure, eq_comm]

section

variable {names : Names} {emission : Emission}

/-- The statement for a setting records its key and its value. -/
theorem Setting.records (hn : isSchemaName names.schema = true) {s : Setting}
    (hkey : s.key.text ≠ "") :
    Records [s.statement names] (names.table Tables.configuration)
      (Content.ofFields [("key", .text s.key.text), ("value", .text s.value)]) := by
  have hinserts := (s.row_shows hn hkey).inserts (Row.written_feed (s.row names).written_inline)
  rw [← String.append_assoc] at hinserts
  refine records_of_inserts [] (by simp) hinserts ?_ (.refl _)
  simp only [Content.ofFields, List.map_cons, List.map_nil]
  decide

/-- The statement for a permission records its fields. -/
theorem Permission.records (hn : isSchemaName names.schema = true) {p : Permission}
    (hname : p.name ≠ "") (h : Permission.emit names (.configured p) = .ok emission) :
    Records emission.texts (names.table Tables.permissions)
      (Content.ofFields p.config.config.fields) := by
  obtain ⟨row, hrow, rfl⟩ := spreadRow_eq_ok.mp h
  obtain ⟨id, config⟩ := p
  -- The two kinds of permissions share a table, but not the other columns.
  cases config with
  | system c =>
    have hinserts := (c.row_shows hn hname hrow).inserts row.written_spread
    refine records_of_inserts [] (by simp) hinserts ?_ (c.perm_fields.map _)
    simp only [Content.ofFields, List.map_cons, List.map_nil]
    decide
  | data c =>
    have hinserts := (c.row_shows hn hname hrow).inserts row.written_spread
    refine records_of_inserts [] (by simp) hinserts ?_ (c.perm_fields.map _)
    simp only [Content.ofFields, List.map_cons, List.map_nil]
    decide

theorem Group.records (hn : isSchemaName names.schema = true) {g : Group} (hname : g.name ≠ "")
    (h : Group.emit names (.configured g) = .ok emission) :
    Records emission.texts (names.table Tables.groups) (Content.ofFields g.config.fields) := by
  obtain ⟨row, hrow, rfl⟩ := spreadRow_eq_ok.mp h
  have hinserts := (g.row_shows hn hname hrow).inserts row.written_spread
  refine records_of_inserts [] (by simp) hinserts ?_ (.refl _)
  simp only [Content.ofFields, List.map_cons, List.map_nil]
  decide

theorem Role.records (hn : isSchemaName names.schema = true) {o : Role} (hname : o.name ≠ "")
    (h : Role.emit names (.configured o) = .ok emission) :
    Records emission.texts (names.table Tables.roles) (Content.ofFields o.config.fields) := by
  obtain ⟨row, hrow, rfl⟩ := spreadRow_eq_ok.mp h
  have hinserts := (o.row_shows hn hname hrow).inserts row.written_spread
  refine records_of_inserts [] (by simp) hinserts ?_ (o.config.perm_fields.map _)
  simp only [Content.ofFields, List.map_cons, List.map_nil]
  decide

/-- The statements for an account record its identifier and its fields, in one row. -/
theorem Account.records (hn : isSchemaName names.schema = true) {a : Account}
    (hid : a.id.text ≠ "") (h : Account.emit names (.configured a) = .ok emission) :
    Records emission.texts (names.table Tables.accounts)
      (Content.ofFields (("auth_user_id", .text a.id.text) :: a.config.fields)) := by
  obtain ⟨row, hrow, rfl⟩ := Account.emit_eq_ok.mp h
  have hinserts := (a.row_shows hn hid hrow).inserts row.written_inline
  refine records_of_inserts [a.flagStatement names] ?_ hinserts ?_ (.refl _)
  · -- The mark on the external identity stands in front and inserts nothing.
    intro t ht
    obtain rfl := List.mem_singleton.mp ht
    exact a.read?_flagStatement names
  · simp only [Content.ofFields, List.map_cons, List.map_nil]
    decide

/-- The statement for an override records its fields, with look-ups of the account and the
permission. -/
theorem Override.records (hn : isSchemaName names.schema = true) {a : Account} {o : Override}
    (h : spreadRow (o.row names (a.lookup names)) = .ok emission) :
    Records emission.texts (names.table Tables.accountPermissions) (o.recorded names a.id) := by
  obtain ⟨row, hrow, rfl⟩ := spreadRow_eq_ok.mp h
  have hinserts := (o.row_shows hn hrow).inserts row.written_spread
  refine records_of_inserts [] (by simp) hinserts ?_ ((o.perm_fields.map _).append_left _)
  simp only [Content.ofFields, List.map_cons, List.map_nil, List.cons_append, List.nil_append]
  decide

/-- What is registered by definitions emits one row that records its fields. -/
theorem Entity.Sound.records (hn : isSchemaName names.schema = true) {e : Entity} (he : e.Sound)
    (h : e.emit names = .ok emission) :
    ∃ fields, e.fields? = some fields ∧
      Records emission.texts (names.table e.kind.table) (Content.ofFields fields) := by
  -- What makes an entity sound says that its key is not empty, which its row needs.
  cases he with
  | setting s hkey =>
    obtain rfl := Except.ok.inj h
    exact ⟨_, rfl, s.records hn hkey⟩
  | permission p hp =>
    obtain ⟨v, hv⟩ := hp
    exact ⟨_, rfl, p.records hn (PermissionConfig.name_ne_empty hv) h⟩
  | group g hg =>
    obtain ⟨v, hv⟩ := hg
    exact ⟨_, rfl, g.records hn (GroupConfig.name_ne_empty hv) h⟩
  | role o ho =>
    obtain ⟨v, hv⟩ := ho.1
    exact ⟨_, rfl, o.records hn (RoleConfig.name_ne_empty hv) h⟩
  | account a ha => exact ⟨_, rfl, a.records hn ha.1 h⟩

end

/-- Whatever a reachable registry emits for an entity is one row that records its fields; whatever
it emits for an override is one row that records the account, the permission and the other fields
of the override. -/
theorem emissions_record_fields {r : Registry} (h : r.Built) :
    (∀ e ∈ r.entities, ∀ emission, e.emit r.names = .ok emission →
      ∃ fields, e.fields? = some fields ∧
        Records emission.texts (r.names.table e.kind.table) (Content.ofFields fields)) ∧
    (∀ a ∈ r.accounts.toList, ∀ o ∈ a.accountOverrides, ∀ emission,
      spreadRow (o.row r.names (a.findAccount r.names)) = .ok emission →
        Records emission.texts (r.names.table Tables.accountPermissions)
          (o.recorded r.names a.accountId)) := by
  have hsound := h.sound
  have hn := hsound.schema
  refine ⟨?_, ?_⟩
  · intro e he emission hemit
    exact (hsound.entity he).records hn hemit
  · intro e he o ho emission hemit
    -- Overrides are written for configured accounts only, as all entities here are configured.
    obtain ⟨a, rfl, -⟩ := hsound.accounts.mem_toList he
    exact o.records hn hemit

/-- The role of the sample is written, and what is written records its fields. -/
theorem emissions_record_fields_sample :
    ∃ e ∈ Registry.sample.ofKind .role, ∃ emission fields,
      e.emit Registry.sample.names = .ok emission ∧ e.fields? = some fields ∧
        Records emission.texts (Registry.sample.names.table Tables.roles)
          (Content.ofFields fields) := by
  -- Some role of the sample is written; which one does not matter.
  have hemits : ((Registry.sample.ofKind .role).any fun e =>
      decide (e.kind = .role) && (e.emit Registry.sample.names).isOk) = true := by decide +kernel
  obtain ⟨e, he, hok⟩ := List.any_eq_true.mp hemits
  rw [Bool.and_eq_true, decide_eq_true_eq] at hok
  obtain ⟨emission, hemit⟩ := Except.exists_of_isOk hok.2
  have hmem : e ∈ Registry.sample.entities :=
    List.mem_flatMap.mpr ⟨.role, by decide, he⟩
  obtain ⟨fields, hfields, hrecords⟩ :=
    (emissions_record_fields Registry.built_sample).1 e hmem emission hemit
  rw [hok.1] at hrecords
  exact ⟨e, he, emission, fields, hemit, hfields, hrecords⟩

end AccessGraph
