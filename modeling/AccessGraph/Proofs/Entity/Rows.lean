import AccessGraph.Compilation.Phase
import AccessGraph.Proofs.Entity.Content
import AccessGraph.Proofs.Registry.Reachable

/-!
# What the rows of entities show

One lemma for each shape of a row: whenever the row can be written, its columns hold the contents of
the fields they are named after.  Names, keys and identifiers have to be given, that is, not empty;
the schema has to have an accepted name, since it is written as it is.
-/

namespace AccessGraph

open Content (ofField momentColumns optionalColumns)
open Sql (Expr IsName LiteralFault Row)

/-! ## Names of tables -/

/-- The characters of an identifier may stand in a name. -/
private theorem isNameChar_of_isIdentifier {cs : List Char} (h : isIdentifier cs = true) :
    cs.all Sql.isNameChar = true := by
  cases cs with
  | nil => rfl
  | cons c cs =>
    rw [isIdentifier, Bool.and_eq_true] at h
    rw [List.all_cons, Bool.and_eq_true]
    refine ⟨Sql.isNameChar_of_word (by rw [h.1, Bool.true_or]), ?_⟩
    exact List.all_eq_true.mpr fun d hd =>
      Sql.isNameChar_of_word (List.all_eq_true.mp h.2 d hd)

/-- An accepted name of a schema is made of the characters of names; so is a line feed at its
end. -/
private theorem isName_of_isSchemaName {s : String} (h : isSchemaName s = true) : IsName s := by
  have hid := isNameChar_of_isIdentifier h
  unfold dropFinalNewline at hid
  -- A line feed at the end was not looked at, but it is a character of names as well.
  split at hid
  · next hlast =>
    obtain ⟨cs, hcs⟩ := List.getLast?_eq_some_iff.mp hlast
    rw [hcs, List.dropLast_concat] at hid
    rw [IsName, hcs, List.all_append, hid]
    decide
  · exact hid

/-- A name stays one behind an accepted schema name. -/
theorem isName_qualified {s t : String} (hs : isSchemaName s = true) (ht : IsName t) :
    IsName (s ++ "." ++ t) := by
  have hdot : ".".toList.all Sql.isNameChar = true := by decide
  rw [IsName, String.toList_append, String.toList_append, List.all_append, List.all_append,
    isName_of_isSchemaName hs, hdot, ht]
  rfl

instance (s : String) : Decidable (IsName s) :=
  inferInstanceAs (Decidable (s.toList.all Sql.isNameChar = true))

/-! ## Entities -/

/-- What columns hold for the fields of their names. -/
def Content.ofFields (fields : Table) : List (String × Option Content) :=
  fields.map fun f => (f.1, ofField f.1 f.2)

section

variable {names : Names} {row : Row}

/-- The row of a setting shows its key and its value. -/
theorem Setting.row_shows (hn : isSchemaName names.schema = true) {s : Setting}
    (hkey : s.key.text ≠ "") :
    (s.row names).Shows (names.table Tables.configuration)
      (Content.ofFields [("key", .text s.key.text), ("value", .text s.value)]) := by
  have hrow : s.row names = Row.ofExprs (names.table Tables.configuration)
      [("key", .ofOption s.key.text), ("value", .literal s.value)] := by
    simp [row, Row.ofExprs]
  refine ⟨_, hrow, isName_qualified hn (by decide), by simp, ?_⟩
  apply Cells.cons (by decide) (denotes_text (by decide) (by decide) hkey)
  apply Cells.cons (by decide) (denotes_literal (by decide) (by decide) s.value)
  exact Cells.nil

/-- The row of a system permission shows its fields. -/
theorem SystemPermission.row_shows (hn : isSchemaName names.schema = true)
    {p : SystemPermission} (hname : p.name ≠ "") (h : p.row names = .ok row) :
    row.Shows (names.table Tables.permissions)
      (Content.ofFields [("name", .text p.name), ("description", optionText p.description),
        (tagField, .text "system"), ("system_resource", .label (.resource p.resource)),
        ("action", .label (.action p.action)), ("metadata", .ofTable p.metadata)]) := by
  obtain ⟨_, hmetadata, h⟩ := Except.bind_eq_ok.mp h
  obtain ⟨metadata, rfl, hm⟩ := denotes_jsonTable "metadata" hmetadata
  -- The row is made of expressions for its fields; the two words are never empty.
  have hrow : row = Row.ofExprs (names.table Tables.permissions)
      [("name", .ofOption p.name), ("description", .ofOption p.description),
        (tagField, .literal "system"), ("system_resource", .ofOption p.resource.text),
        ("action", .ofOption p.action.text), ("metadata", metadata)] := by
    obtain rfl := Except.ok.inj h
    simp [Row.ofExprs, tagField]
  have hresource : (Label.resource p.resource).text ≠ "" := by cases p.resource <;> decide
  have haction : (Label.action p.action).text ≠ "" := by cases p.action <;> decide
  refine ⟨_, hrow, isName_qualified hn (by decide), by simp, ?_⟩
  apply Cells.cons (by decide) (denotes_text (by decide) (by decide) hname)
  apply Cells.cons (by decide) (denotes_optional (by decide) p.description)
  apply Cells.cons (by decide) (denotes_literal (by decide) (by decide) "system")
  apply Cells.cons (by decide) (denotes_word (by decide) hresource)
  apply Cells.cons (by decide) (denotes_word (by decide) haction)
  apply Cells.cons (by decide) hm
  exact Cells.nil

theorem DataPermission.row_shows (hn : isSchemaName names.schema = true) {p : DataPermission}
    (hname : p.name ≠ "") (h : p.row names = .ok row) :
    row.Shows (names.table Tables.permissions)
      (Content.ofFields [("name", .text p.name), ("description", optionText p.description),
        (tagField, .text "data"), ("scope", .label (.scope p.scope)),
        ("schema_name", optionText p.schemaName), ("table_name", optionText p.tableName),
        ("column_name", optionText p.columnName), ("action", .label (.action p.action)),
        ("constraints", optionTable p.constraints), ("conditions", optionTable p.conditions),
        ("metadata", .ofTable p.metadata)]) := by
  obtain ⟨_, hconstraints, h⟩ := Except.bind_eq_ok.mp h
  obtain ⟨_, hconditions, h⟩ := Except.bind_eq_ok.mp h
  obtain ⟨_, hmetadata, h⟩ := Except.bind_eq_ok.mp h
  -- Each of the three tables was encoded, so each has its own expression.
  obtain ⟨constraints, rfl, hcs⟩ := denotes_jsonOption "constraints" hconstraints
  obtain ⟨conditions, rfl, hcd⟩ := denotes_jsonOption "conditions" hconditions
  obtain ⟨metadata, rfl, hm⟩ := denotes_jsonTable "metadata" hmetadata
  have hrow : row = Row.ofExprs (names.table Tables.permissions)
      [("name", .ofOption p.name), ("description", .ofOption p.description),
        (tagField, .literal "data"), ("scope", .ofOption p.scope.text),
        ("schema_name", .ofOption p.schemaName), ("table_name", .ofOption p.tableName),
        ("column_name", .ofOption p.columnName), ("action", .ofOption p.action.text),
        ("constraints", constraints), ("conditions", conditions), ("metadata", metadata)] := by
    obtain rfl := Except.ok.inj h
    simp [Row.ofExprs, tagField]
  have hscope : (Label.scope p.scope).text ≠ "" := by cases p.scope <;> decide
  have haction : (Label.action p.action).text ≠ "" := by cases p.action <;> decide
  refine ⟨_, hrow, isName_qualified hn (by decide), by simp, ?_⟩
  apply Cells.cons (by decide) (denotes_text (by decide) (by decide) hname)
  apply Cells.cons (by decide) (denotes_optional (by decide) p.description)
  apply Cells.cons (by decide) (denotes_literal (by decide) (by decide) "data")
  apply Cells.cons (by decide) (denotes_word (by decide) hscope)
  apply Cells.cons (by decide) (denotes_optional (by decide) p.schemaName)
  apply Cells.cons (by decide) (denotes_optional (by decide) p.tableName)
  apply Cells.cons (by decide) (denotes_optional (by decide) p.columnName)
  apply Cells.cons (by decide) (denotes_word (by decide) haction)
  apply Cells.cons (by decide) hcs
  apply Cells.cons (by decide) hcd
  apply Cells.cons (by decide) hm
  exact Cells.nil

/-- The row of a permission of either kind. -/
theorem Permission.exists_shows (hn : isSchemaName names.schema = true) {p : Permission}
    (hname : p.name ≠ "") (h : p.row names = .ok row) :
    ∃ contents, row.Shows (names.table Tables.permissions) contents := by
  obtain ⟨id, config⟩ := p
  cases config with
  | system c => exact ⟨_, c.row_shows hn hname h⟩
  | data c => exact ⟨_, c.row_shows hn hname h⟩

theorem Group.row_shows (hn : isSchemaName names.schema = true) {g : Group}
    (hname : g.name ≠ "") (h : g.row names = .ok row) :
    row.Shows (names.table Tables.groups)
      (Content.ofFields [("name", .text g.name), ("description", optionText g.config.description),
        ("metadata", .ofTable g.config.metadata)]) := by
  obtain ⟨_, hmetadata, h⟩ := Except.bind_eq_ok.mp h
  obtain ⟨metadata, rfl, hm⟩ := denotes_jsonTable "metadata" hmetadata
  -- The texts in the row are those of expressions, cell by cell.
  have hrow : row = Row.ofExprs (names.table Tables.groups)
      [("name", .ofOption g.name), ("description", .ofOption g.config.description),
        ("metadata", metadata)] := by
    obtain rfl := Except.ok.inj h
    simp [Row.ofExprs]
  refine ⟨_, hrow, isName_qualified hn (by decide), by simp, ?_⟩
  apply Cells.cons (by decide) (denotes_text (by decide) (by decide) hname)
  apply Cells.cons (by decide) (denotes_optional (by decide) g.config.description)
  apply Cells.cons (by decide) hm
  exact Cells.nil

/-- The value of one end of a window. -/
def momentValue (m : Option Moment) : Value := m.elim .null .moment

theorem Role.row_shows (hn : isSchemaName names.schema = true) {r : Role} (hname : r.name ≠ "")
    (h : r.row names = .ok row) :
    row.Shows (names.table Tables.roles)
      (Content.ofFields [("name", .text r.name), ("description", optionText r.config.description),
        ("rank", .int r.config.rank), ("metadata", .ofTable r.config.metadata),
        ("valid_from", momentValue r.config.window.validFrom),
        ("valid_until", momentValue r.config.window.validUntil)]) := by
  -- Three of the cells can fail, and all of them were made.
  obtain ⟨_, hmetadata, h⟩ := Except.bind_eq_ok.mp h
  obtain ⟨_, hfrom, h⟩ := Except.bind_eq_ok.mp h
  obtain ⟨_, huntil, h⟩ := Except.bind_eq_ok.mp h
  obtain ⟨metadata, rfl, hm⟩ := denotes_jsonTable "metadata" hmetadata
  obtain ⟨validFrom, rfl, hf⟩ := denotes_timestamp (show "valid_from" ∈ _ by decide) hfrom
  obtain ⟨validUntil, rfl, hu⟩ := denotes_timestamp (show "valid_until" ∈ _ by decide) huntil
  -- The texts in the row are those of expressions, cell by cell.
  have hrow : row = Row.ofExprs (names.table Tables.roles)
      [("name", .ofOption r.name), ("description", .ofOption r.config.description),
        ("rank", .integer r.config.rank), ("metadata", metadata), ("valid_from", validFrom),
        ("valid_until", validUntil)] := by
    obtain rfl := Except.ok.inj h
    simp [Row.ofExprs]
  refine ⟨_, hrow, isName_qualified hn (by decide), by simp, ?_⟩
  apply Cells.cons (by decide) (denotes_text (by decide) (by decide) hname)
  apply Cells.cons (by decide) (denotes_optional (by decide) r.config.description)
  apply Cells.cons (by decide) (denotes_integer _ r.config.rank)
  apply Cells.cons (by decide) hm
  apply Cells.cons (by decide) hf
  apply Cells.cons (by decide) hu
  exact Cells.nil

/-- The row of an account shows its identifier and its fields. -/
theorem Account.row_shows (hn : isSchemaName names.schema = true) {a : Account}
    (hid : a.id.text ≠ "") (h : a.row names = .ok row) :
    row.Shows (names.table Tables.accounts)
      (Content.ofFields [("auth_user_id", .text a.id.text),
        ("metadata", .ofTable a.config.metadata)]) := by
  obtain ⟨_, hmetadata, h⟩ := Except.bind_eq_ok.mp h
  obtain ⟨metadata, rfl, hm⟩ := denotes_jsonTable "metadata" hmetadata
  -- The texts in the row are those of expressions, cell by cell.
  have hrow : row = Row.ofExprs (names.table Tables.accounts)
      [("auth_user_id", .ofOption a.id.text), ("metadata", metadata)] := by
    obtain rfl := Except.ok.inj h
    simp [Row.ofExprs]
  refine ⟨_, hrow, isName_qualified hn (by decide), by simp, ?_⟩
  apply Cells.cons (by decide) (denotes_text (by decide) (by decide) hid)
  apply Cells.cons (by decide) hm
  exact Cells.nil

/-! ## References -/

/-- What a row is found by: a text in a column of its table. -/
structure NaturalKey where
  table : String
  column : String
  value : String
  deriving DecidableEq, Repr

namespace NaturalKey

/-- The subquery that finds the row. -/
def subquery (k : NaturalKey) : String := Sql.lookup k.table k.column k.value

/-- What a column holds that refers to the row. -/
def content (k : NaturalKey) : Content := .row k.table k.column k.value

/-- Whether the table and the column of a key can be written as they are. -/
def WellNamed (k : NaturalKey) : Prop := IsName k.table ∧ IsName k.column

/-- The look-up by a natural key denotes the row that has the key. -/
theorem denotes {k : NaturalKey} (h : k.WellNamed) (column : String) :
    Denotes (.lookup k.table k.column k.value) column (some k.content) :=
  denotes_lookup h.1 h.2 column k.value

end NaturalKey

namespace Kind

/-- The table that holds the entities of a kind. -/
def table : Kind → String
  | .setting => Tables.configuration
  | .permission => Tables.permissions
  | .group => Tables.groups
  | .role => Tables.roles
  | .account => Tables.accounts

/-- The column by which entities of a kind are found. -/
def keyColumn : Kind → String
  | .setting => "key"
  | .permission => "name"
  | .group => "name"
  | .role => "name"
  | .account => "auth_user_id"

/-- The key by which an entity of a kind is found. -/
def key (names : Names) (kind : Kind) (value : String) : NaturalKey :=
  ⟨names.table kind.table, kind.keyColumn, value⟩

/-- The table of a kind has a name that is read back whole. -/
private theorem isName_table (hn : isSchemaName names.schema = true) (kind : Kind) :
    IsName (names.table kind.table) :=
  isName_qualified hn (by cases kind <;> decide)

/-- The natural keys of a kind are well named. -/
theorem key_wellNamed (hn : isSchemaName names.schema = true) (kind : Kind) (value : String) :
    (kind.key names value).WellNamed :=
  ⟨isName_table hn kind, show IsName kind.keyColumn by cases kind <;> decide⟩

end Kind

/-- The row of an override shows two look-ups and its fields. -/
theorem Override.row_shows (hn : isSchemaName names.schema = true) {a : Account} {o : Override}
    (h : o.row names (a.lookup names) = .ok row) :
    row.Shows (names.table Tables.accountPermissions)
      ([("account_id", some (Kind.account.key names a.id.text).content),
        ("permission_id", some (Kind.permission.key names o.permissionName).content)]
        ++ Content.ofFields [("is_grant", .bool o.isGrant),
          ("valid_from", momentValue o.window.validFrom),
          ("valid_until", momentValue o.window.validUntil),
          ("metadata", .ofTable o.metadata)]) := by
  obtain ⟨_, hfrom, h⟩ := Except.bind_eq_ok.mp h
  obtain ⟨_, huntil, h⟩ := Except.bind_eq_ok.mp h
  obtain ⟨_, hmetadata, h⟩ := Except.bind_eq_ok.mp h
  obtain ⟨metadata, rfl, hm⟩ := denotes_jsonTable "metadata" hmetadata
  obtain ⟨validFrom, rfl, hf⟩ := denotes_timestamp (show "valid_from" ∈ _ by decide) hfrom
  obtain ⟨validUntil, rfl, hu⟩ := denotes_timestamp (show "valid_until" ∈ _ by decide) huntil
  have hrow : row = Row.ofExprs (names.table Tables.accountPermissions)
      [("account_id", .lookup (names.table Tables.accounts) "auth_user_id" a.id.text),
        ("permission_id", .lookup (names.table Tables.permissions) "name" o.permissionName),
        ("is_grant", .truth o.isGrant), ("valid_from", validFrom),
        ("valid_until", validUntil), ("metadata", metadata)] := by
    obtain rfl := Except.ok.inj h
    simp [Row.ofExprs, Account.lookup, lookupPermission]
  -- The first two columns refer to other rows; the others are fields of the override.
  have haccount := Kind.account.key_wellNamed hn a.id.text
  have hpermission := Kind.permission.key_wellNamed hn o.permissionName
  refine ⟨_, hrow, isName_qualified hn (by decide), by simp, ?_⟩
  apply Cells.cons (by decide) (NaturalKey.denotes haccount _)
  apply Cells.cons (by decide) (NaturalKey.denotes hpermission _)
  apply Cells.cons (by decide) (denotes_truth _ o.isGrant)
  apply Cells.cons (by decide) hf
  apply Cells.cons (by decide) hu
  apply Cells.cons (by decide) hm
  exact Cells.nil

end

end AccessGraph
