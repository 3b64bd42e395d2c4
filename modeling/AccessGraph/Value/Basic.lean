import AccessGraph.Calendar.Moment
import AccessGraph.Number.Decimal
import AccessGraph.Number.Uuid
import AccessGraph.Schema
import AccessGraph.Vocabulary

/-!
# Configuration values

What callers may hand in as a configuration, and what may be nested inside metadata.  Dictionaries
keep their entries in order and may have keys that are no texts.  A `record` is an instance of a
schema, given by the values of the fields that were set; the other fields have their defaults.

`Value.sameKey` is equality of dictionary keys: numbers of all kinds are compared by value and
labels by their text.  `Value.dictionaryOf` enters pairs one after another, a later value replacing
that of an equal key in its place.
-/

namespace AccessGraph

/-- A configuration value. -/
inductive Value where
  | null
  | bool (b : Bool)
  | int (n : Int)
  | double (x : Double)
  | text (s : String)
  | bytes (bs : List UInt8)
  | moment (m : Moment)
  | date (d : Date)
  | decimal (d : Decimal)
  | uuid (u : Uuid)
  | label (l : Label)
  | list (xs : List Value)
  | tuple (xs : List Value)
  | dictionary (es : List (Value × Value))
  | record (schema : Schema) (given : List (String × Value))

/-- The entries of a dictionary. -/
abbrev Entries := List (Value × Value)

/-- A table: a dictionary whose keys are texts. -/
abbrev Table := List (String × Value)

namespace Value

/-- Whether the value counts as present where an empty one does not. -/
def isTruthy : Value → Bool
  | .null => false
  | .bool b => b
  | .int n => n != 0
  | .double x => !x.isZero
  | .text s => !s.isEmpty
  | .bytes bs => !bs.isEmpty
  | .decimal d => !d.isZero
  | .list xs => !xs.isEmpty
  | .tuple xs => !xs.isEmpty
  | .dictionary es => !es.isEmpty
  -- Nothing else can be empty or zero.
  | .moment _ | .date _ | .uuid _ | .label _ | .record _ _ => true

/-- The text of a value that is one: a text or a label. -/
def text? : Value → Option String
  | .text s => some s
  | .label l => some l.text
  | _ => none

/-- A dictionary with text keys, from a table. -/
def ofTable (t : Table) : Value := .dictionary (t.map fun (k, v) => (.text k, v))

/-- The numeral of a finite number of any kind. -/
def numeral? : Value → Option Numeral
  | .bool b => some (.ofInt (if b then 1 else 0))
  | .int n => some (.ofInt n)
  | .double x => x.toNumeral?
  | .decimal d => d.numeral?
  | _ => none

/-- The sign of an infinite number. -/
def infinity? : Value → Option Bool
  | .double (.infinite negative) => some negative
  | .decimal (.infinite negative) => some negative
  | _ => none

mutual

/-- Whether two dictionary keys are equal. -/
def sameKey : Value → Value → Bool
  | .tuple xs, .tuple ys => sameKeys xs ys
  | .null, .null => true
  | .bytes a, .bytes b => a == b
  | .moment a, .moment b => a.sameAs b
  | .date a, .date b => a == b
  | .uuid a, .uuid b => a == b
  -- A word is a key as its text is, and numbers of all types are keys by their values.
  | a, b =>
    match a.text?, b.text? with
    | some s, some t => s == t
    | none, none =>
      match a.numeral?, b.numeral? with
      | some m, some n => m.sameValue n
      | none, none => a.infinity?.isSome && a.infinity? == b.infinity?
      | _, _ => false
    | _, _ => false

/-- Whether two lists of dictionary keys are equal member by member. -/
def sameKeys : List Value → List Value → Bool
  | [], [] => true
  | x :: xs, y :: ys => sameKey x y && sameKeys xs ys
  | _, _ => false

end

/-- Enters a key with its value; an equal key keeps its place and gets the new value. -/
def insertKey (es : Entries) (k v : Value) : Entries :=
  if es.any (fun e => sameKey e.1 k) then
    es.map fun e => if sameKey e.1 k then (e.1, v) else e
  else es ++ [(k, v)]

/-- The dictionary with the given pairs entered one after another. -/
def dictionaryOf (pairs : Entries) : Value :=
  .dictionary (pairs.foldl (fun es (k, v) => insertKey es k v) [])

/-- The value that entries hold under a text key. -/
def find? (es : Entries) (name : String) : Option Value :=
  (es.find? fun e => e.1.text? == some name).map Prod.snd

mutual

/-- The value with every nested record replaced by the dictionary of its given fields. -/
def unfolded : Value → Value
  | .list xs => .list (unfoldedList xs)
  | .tuple xs => .tuple (unfoldedList xs)
  | .dictionary es => .dictionary (unfoldedEntries es)
  | .record _ given => .dictionary (unfoldedFields given)
  | v => v

/-- `unfolded` on the members of a list. -/
def unfoldedList : List Value → List Value
  | [] => []
  | x :: xs => unfolded x :: unfoldedList xs

/-- `unfolded` on the values of entries. -/
def unfoldedEntries : List (Value × Value) → List (Value × Value)
  | [] => []
  | (k, v) :: es => (k, unfolded v) :: unfoldedEntries es

/-- The entries of the dictionary that a record's fields make. -/
def unfoldedFields : List (String × Value) → List (Value × Value)
  | [] => []
  | (k, v) :: fs => (.text k, unfolded v) :: unfoldedFields fs

end

/-- The default of a field that was not set. -/
def defaultOf (field : String) : Value :=
  if field = "metadata" then .dictionary [] else if field = "rank" then .int 0 else .null

/-- Every field of a record, in order. -/
def recordFields (schema : Schema) (given : Table) : Table :=
  schema.fieldNames.map fun f => (f, (given.lookup f).getD (defaultOf f))

end Value

end AccessGraph
