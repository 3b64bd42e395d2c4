import AccessGraph.Entity.Row
import AccessGraph.Proofs.Calendar.Iso
import AccessGraph.Proofs.Sql.TypedRow

/-!
# What columns hold

`Content.decode` reads a value of a column: texts, numbers, truth values, JSON texts, the instants
of moments in UTC, and the rows that subqueries find.  `Content.ofField` is what a column should
hold for the value of a field: an absent field is `NULL`, and so is an empty text in one of the
optional columns of texts, but nowhere else.

`Inserts` says what a statement inserts, column by column.  It is what the other results on rows are
drawn from; `Row.Shows.inserts` derives it from the expressions that a row is made of.
-/

namespace AccessGraph

open Sql (Expr Insertion LiteralFault Row)

/-- What a column holds. -/
inductive Content where
  | null
  | text (s : String)
  | integer (n : Int)
  | truth (b : Bool)
  /-- A moment, by its instant. -/
  | instant (n : Int)
  /-- A JSON text. -/
  | json (s : String)
  /-- The time at which the statement runs. -/
  | now
  /-- The row of a table with a text in a column. -/
  | row (table column value : String)
  deriving DecidableEq, Repr

namespace Content

/-- The columns of moments. -/
def momentColumns : List String := ["valid_from", "valid_until"]

/-- The columns of texts that may be absent. -/
def optionalColumns : List String := ["description", "schema_name", "table_name", "column_name"]

/-- The instant that the ISO form of a moment in UTC denotes. -/
def ofUtc? (s : String) : Option Content := do
  let m ← Moment.ofIso? s
  if m.offset.map Offset.seconds = some 0 then some (.instant m.instant) else none

/-- What an expression denotes in a column. -/
def ofExpr (column : String) : Expr → Option Content
  | .null => some .null
  | .literal s => if column ∈ momentColumns then ofUtc? s else some (.text s)
  | .jsonb s => some (.json s)
  | .integer n => some (.integer n)
  | .truth b => some (.truth b)
  | .now => some .now
  | .lookup table column value => some (.row table column value)

/-- What the text of a value denotes in a column. -/
def decode (column value : String) : Option Content :=
  (Expr.ofChars? value.toList).bind (ofExpr column)

/-- What a column should hold for the value of its field.  What has no form of its own is held as a
JSON text. -/
def ofField (column : String) : Value → Option Content
  | .null => some .null
  | .text s => if s = "" ∧ column ∈ optionalColumns then some .null else some (.text s)
  | .label l => some (.text l.text)
  | .bool b => some (.truth b)
  | .int n => some (.integer n)
  | .moment m => some (.instant m.instant)
  | v =>
    match Json.encode v with
    | .ok cs => some (.json (String.ofList cs))
    | .error _ => none

end Content

/-! ## Expressions for fields -/

open Content (ofExpr ofField momentColumns optionalColumns)

/-- An expression that may stand in a column, for something that the column can hold. -/
structure Denotes (e : Expr) (column : String) (content : Option Content) : Prop where
  wellNamed : e.WellNamed
  isSome : content.isSome = true
  eq : ofExpr column e = content

/-- The expression for a text: nothing for an absent or empty one. -/
def Sql.Expr.ofOption (s : Option String) : Expr :=
  match s with
  | none => .null
  | some s => if s.isEmpty then .null else .literal s

/-- The expression for a text that may be absent is written as the quoted text. -/
@[simp] theorem Sql.Expr.text_ofOption (s : Option String) : (ofOption s).text = Sql.quote s := by
  cases s with
  | none => rfl
  | some s =>
    rw [ofOption, Sql.quote]
    split <;> rfl

/-- A text that may be absent involves no names. -/
theorem Sql.Expr.wellNamed_ofOption (s : Option String) : (ofOption s).WellNamed := by
  unfold ofOption
  split
  · trivial
  · split <;> trivial

/-- A text that is there and not empty is a literal. -/
theorem Sql.Expr.ofOption_of_ne_empty {s : String} (hs : s ≠ "") :
    ofOption (some s) = .literal s := by
  simp [ofOption, hs]

/-- A literal denotes its text, in a column that is neither for a moment nor optional. -/
theorem denotes_literal {column : String} (hm : column ∉ momentColumns)
    (ho : column ∉ optionalColumns) (s : String) :
    Denotes (.literal s) column (ofField column (.text s)) :=
  ⟨trivial, by simp [ofField, ho], by simp [ofExpr, ofField, hm, ho]⟩

/-- A text that is not empty is never written as an absent one. -/
theorem denotes_text {column : String} (hm : column ∉ momentColumns)
    (ho : column ∉ optionalColumns) {s : String} (hs : s ≠ "") :
    Denotes (.ofOption (some s)) column (ofField column (.text s)) := by
  rw [Sql.Expr.ofOption_of_ne_empty hs]
  exact denotes_literal hm ho s

/-- The literal of a label denotes the label. -/
theorem denotes_word {column : String} (hm : column ∉ momentColumns) {l : Label}
    (hl : l.text ≠ "") : Denotes (.ofOption (some l.text)) column (ofField column (.label l)) := by
  rw [Sql.Expr.ofOption_of_ne_empty hl]
  exact ⟨trivial, rfl, by simp [ofExpr, ofField, hm]⟩

theorem denotes_integer (column : String) (n : Int) :
    Denotes (.integer n) column (ofField column (.int n)) := ⟨trivial, rfl, rfl⟩

theorem denotes_truth (column : String) (b : Bool) :
    Denotes (.truth b) column (ofField column (.bool b)) := ⟨trivial, rfl, rfl⟩

theorem denotes_now (column : String) : Denotes .now column (some .now) := ⟨trivial, rfl, rfl⟩

/-- A look-up denotes the row with the value in the key column. -/
theorem denotes_lookup {table key : String} (htable : Sql.IsName table) (hkey : Sql.IsName key)
    (column value : String) :
    Denotes (.lookup table key value) column (some (.row table key value)) :=
  ⟨⟨htable, hkey⟩, rfl, rfl⟩

/-- A text that may be absent denotes itself in an optional column, and the empty text there counts
as absent. -/
theorem denotes_optional {column : String} (hc : column ∈ optionalColumns) (s : Option String) :
    Denotes (.ofOption s) column (ofField column (optionText s)) := by
  have hm : column ∉ momentColumns := by
    revert hc column
    decide
  cases s with
  | none => exact ⟨trivial, rfl, rfl⟩
  | some s =>
    -- An empty text is written like an absent one, and the column holds it as such.
    by_cases hs : s = ""
    · subst hs
      exact ⟨trivial, by simp [optionText, ofField, hc],
        by simp [Sql.Expr.ofOption, optionText, ofExpr, ofField, hc]⟩
    · rw [Sql.Expr.ofOption_of_ne_empty hs]
      exact ⟨trivial, by simp [optionText, ofField, hs],
        by simp [optionText, ofExpr, ofField, hm, hs]⟩

/-- The expression of a moment is that of its instant in UTC. -/
theorem denotes_timestamp {column : String} (hc : column ∈ momentColumns) {m : Option Moment}
    {s : String} (h : Sql.timestamp m = .ok s) :
    ∃ e : Expr, e.text = s ∧ Denotes e column (ofField column (m.elim .null .moment)) := by
  cases m with
  | none =>
    obtain rfl := Except.ok.inj h
    exact ⟨.null, rfl, trivial, rfl, rfl⟩
  | some m =>
    unfold Sql.timestamp at h
    split at h
    · next heq => simp at heq
    · next m' heq =>
      obtain rfl := Option.some.inj heq
      split at h
      · next u hu =>
        obtain rfl := Except.ok.inj h
        -- What is written is another moment, in UTC, at the same instant.
        obtain ⟨hinstant, hoffset⟩ := Moment.instant_of_utc? hu
        refine ⟨.literal u.iso, rfl, trivial, rfl, ?_⟩
        have hread : Content.ofUtc? u.iso = some (.instant m.instant) := by
          have hzero : u.given.offset.map Offset.seconds = some 0 := by
            rw [Moment.offset_given, hoffset]
            rfl
          simp only [Content.ofUtc?, Moment.ofIso?_iso, Option.bind_eq_bind, Option.bind_some]
          rw [if_pos hzero, Moment.instant_given, hinstant]
        simp [ofExpr, hc, hread, ofField]
      · simp at h

/-- Tables that are not truthy are empty, so encoding always encodes the table itself. -/
private theorem jsonTable_eq_ok {t : Table} {s : String} (h : Sql.jsonTable t = .ok s) :
    ∃ cs, Json.encode (.ofTable t) = .ok cs ∧ s = (Expr.jsonb (String.ofList cs)).text := by
  -- An empty table is falsy, but what is written in its place is the same.
  have hencoded : (if (Value.ofTable t).isTruthy then Value.ofTable t else .dictionary [])
      = Value.ofTable t := by
    cases t with
    | nil => rfl
    | cons f fs => rfl
  rw [Sql.jsonTable, Sql.json, hencoded] at h
  split at h
  · next cs hcs =>
    obtain rfl := Except.ok.inj h
    exact ⟨cs, hcs, rfl⟩
  · simp at h

/-- A table stands in a column as the text of its encoding. -/
private theorem ofField_ofTable {t : Table} {cs : List Char} (column : String)
    (h : Json.encode (.ofTable t) = .ok cs) :
    ofField column (.ofTable t) = some (.json (String.ofList cs)) := by
  show (match Json.encode (.ofTable t) with
    | .ok cs => some (Content.json (String.ofList cs))
    | .error _ => none) = _
  rw [h]

/-- The literal of a table denotes it. -/
theorem denotes_jsonTable (column : String) {t : Table} {s : String}
    (h : Sql.jsonTable t = .ok s) :
    ∃ e : Expr, e.text = s ∧ Denotes e column (ofField column (.ofTable t)) := by
  obtain ⟨cs, hcs, rfl⟩ := jsonTable_eq_ok h
  have hfield := ofField_ofTable column hcs
  exact ⟨.jsonb (String.ofList cs), rfl, trivial, by rw [hfield]; rfl, by rw [hfield]; rfl⟩

/-- The literal of a table that may be absent denotes it, and null if it is. -/
theorem denotes_jsonOption (column : String) {t : Option Table} {s : String}
    (h : Sql.jsonOption t = .ok s) :
    ∃ e : Expr, e.text = s ∧ Denotes e column (ofField column (optionTable t)) := by
  cases t with
  | none =>
    obtain rfl := Except.ok.inj h
    exact ⟨.null, rfl, trivial, rfl, rfl⟩
  | some t => exact denotes_jsonTable column h

/-! ## Rows -/

/-- Expressions for columns, side by side with what they denote there. -/
inductive Cells : List (String × Expr) → List (String × Option Content) → Prop
  | nil : Cells [] []
  | cons {column : String} {e : Expr} {content : Option Content} {cells : List (String × Expr)}
    {contents : List (String × Option Content)} : Sql.IsColumn column →
    Denotes e column content → Cells cells contents →
    Cells ((column, e) :: cells) ((column, content) :: contents)

/-- A row of a table with the given contents, column by column. -/
def Sql.Row.Shows (r : Row) (table : String) (contents : List (String × Option Content)) : Prop :=
  ∃ cells, r = Row.ofExprs table cells ∧ Sql.IsName table ∧ cells ≠ [] ∧ Cells cells contents

/-- What the columns of an inserted row hold. -/
def Sql.Insertion.contents (i : Insertion) : List (String × Option Content) :=
  (i.columns.zip i.values).map fun x => (x.1, Content.decode x.1 x.2)

/-- A statement inserts one row of a table, with the given contents of its columns. -/
def Inserts (s table : String) (contents : List (String × Option Content)) : Prop :=
  ∃ i, Insertion.read? s = some i ∧ i.table = table ∧ i.columns.length = i.values.length ∧
    i.contents = contents ∧ ∀ x ∈ contents, x.2.isSome = true

namespace Cells

variable {cells : List (String × Expr)} {contents : List (String × Option Content)}

/-- Cells with contents make a row that is well named, if there are any. -/
theorem wellNamed (h : Cells cells contents) {table : String} (htable : Sql.IsName table)
    (hne : cells ≠ []) : Sql.WellNamed table cells := by
  have hall : (∀ c ∈ cells.map (·.1), Sql.IsColumn c) ∧ ∀ x ∈ cells, x.2.WellNamed := by
    -- The induction is on the cells, which may run out.
    clear hne
    induction h with
    | nil => simp
    | cons hcolumn hdenotes _ ih =>
      refine ⟨?_, List.forall_mem_cons.mpr ⟨hdenotes.wellNamed, ih.2⟩⟩
      rw [List.map_cons]
      exact List.forall_mem_cons.mpr ⟨hcolumn, ih.1⟩
  exact ⟨htable, hne, hall.1, hall.2⟩

/-- The texts of expressions decode to what the expressions denote. -/
private theorem map_decode (h : Cells cells contents) :
    ((cells.map (·.1)).zip (cells.map (·.2.text))).map
      (fun x => (x.1, Content.decode x.1 x.2)) = contents := by
  induction h with
  | nil => rfl
  | @cons column e content _ _ _ hdenotes _ ih =>
    have hdecode : Content.decode column e.text = content := by
      rw [Content.decode, Sql.ofChars?_text hdenotes.wellNamed]
      exact hdenotes.eq
    simp only [List.map_cons, List.zip_cons_cons, hdecode, ih]

/-- All cells have contents. -/
theorem isSome (h : Cells cells contents) : ∀ x ∈ contents, x.2.isSome = true := by
  induction h with
  | nil => simp
  | cons _ hdenotes _ ih => exact List.forall_mem_cons.mpr ⟨hdenotes.isSome, ih⟩

end Cells

namespace Sql.Row.Shows

variable {r : Row} {table : String} {contents : List (String × Option Content)}

/-- A written row inserts what it shows. -/
theorem inserts (h : r.Shows table contents) {s : String} (hs : r.Written s) :
    Inserts s table contents := by
  obtain ⟨cells, rfl, htable, hne, hcells⟩ := h
  exact ⟨_, hs.read? (hcells.wellNamed htable hne), rfl, by simp, hcells.map_decode,
    hcells.isSome⟩

/-- A written row is a statement, whatever it shows. -/
theorem isSpaced (h : r.Shows table contents) {s : String} (hs : r.Written s) :
    Sql.IsSpaced s.toList := by
  obtain ⟨cells, rfl, htable, hne, hcells⟩ := h
  exact hs.isSpaced (hcells.wellNamed htable hne)

end Sql.Row.Shows

end AccessGraph
