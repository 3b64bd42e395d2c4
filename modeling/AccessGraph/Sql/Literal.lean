import AccessGraph.Json.Encoder

/-!
# SQL literals

Every value that reaches a statement is written as one literal.  A string literal stands between
single quotes, and a single quote inside it is written twice; `escape` is that doubling.  Empty and
absent texts are `NULL`.  Time stamps are written in UTC, dictionaries as JSON text cast to `jsonb`.
-/

namespace AccessGraph.Sql

/-- Why a value has no literal. -/
inductive LiteralFault where
  /-- A dictionary key without a JSON form. -/
  | key (fault : Json.BadKey)
  /-- A moment whose UTC form leaves the years 1 to 9999. -/
  | outOfRange
  deriving DecidableEq, Repr

/-- What is wrong with a value that has no literal. -/
def LiteralFault.message : LiteralFault → String
  | .key fault => "keys must be str, int, float, bool or None, not " ++ fault.kind
  | .outOfRange => "date value out of range"

/-- Writes every single quote twice. -/
def escapeChars : List Char → List Char
  | [] => []
  | c :: cs => if c = '\x27' then '\x27' :: '\x27' :: escapeChars cs else c :: escapeChars cs

/-- Writes every single quote of a text twice. -/
def escape (s : String) : String := String.ofList (escapeChars s.toList)

/-- A string literal. -/
def literal (s : String) : String := "'" ++ escape s ++ "'"

/-- A string literal, or `NULL` for an empty or absent text. -/
def quote (s : Option String) : String :=
  match s with
  | none => "NULL"
  | some s => if s.isEmpty then "NULL" else literal s

/-- A `jsonb` literal; absent and empty values are the empty object. -/
def json (v : Value) : Except LiteralFault String :=
  match Json.encode (if v.isTruthy then v else .dictionary []) with
  | .ok text => .ok (literal (String.ofList text) ++ "::jsonb")
  | .error fault => .error (.key fault)

/-- A `jsonb` literal of a table. -/
def jsonTable (t : Table) : Except LiteralFault String := json (.ofTable t)

/-- A `jsonb` literal, or `NULL` for an absent value. -/
def jsonOrNull : Value → Except LiteralFault String
  | .null => .ok "NULL"
  | v => json v

/-- A `jsonb` literal, or `NULL` for an absent table. -/
def jsonOption (t : Option Table) : Except LiteralFault String :=
  jsonOrNull (t.elim .null .ofTable)

/-- A time stamp in UTC, or `NULL` for an absent moment. -/
def timestamp (m : Option Moment) : Except LiteralFault String :=
  match m with
  | none => .ok "NULL"
  | some m =>
    match m.utc? with
    | some u => .ok (literal u.iso)
    | none => .error .outOfRange

/-- A truth value. -/
def bool (b : Bool) : String := if b then "true" else "false"

/-- The subquery that finds the row of a table by the value of one column. -/
def lookup (table column value : String) : String :=
  "(SELECT id FROM " ++ table ++ " WHERE " ++ column ++ " = " ++ literal value ++ ")"

/-- Escaping goes character by character, so it can be done part by part. -/
theorem escapeChars_append (a b : List Char) :
    escapeChars (a ++ b) = escapeChars a ++ escapeChars b := by
  induction a with
  | nil => rfl
  | cons c cs ih => by_cases h : c = '\x27' <;> simp [escapeChars, h, ih]

/-- The characters of an escaped text. -/
@[simp] theorem toList_escape (s : String) : (escape s).toList = escapeChars s.toList := by
  simp [escape]

end AccessGraph.Sql
