import AccessGraph.Value.Display

/-!
# JSON text of values

Values are written as JSON with a comma and a space between members and a colon and a space after
keys.  Strings are pure ASCII: quotes and backslashes are escaped, five controls have letters, and
every other character outside printable ASCII is written by its UTF-16 units.  Numbers are written
in display form, the values that are no numbers by the names `NaN`, `Infinity` and `-Infinity`.

Keys that are numbers, truth values or null are written as strings; a key of any other kind than
these and texts cannot be written.  Values that JSON has no form for are written as the string of
their display.
-/

namespace AccessGraph.Json

/-- A dictionary key that has no JSON form, by the name of its kind. -/
structure BadKey where
  kind : String
  deriving DecidableEq, Repr

/-- A UTF-16 unit, escaped. -/
def escapeUnit (n : Nat) : List Char := '\\' :: 'u' :: Text.fixedDigits 16 4 n

/-- A character inside a JSON string. -/
def escapeChar (c : Char) : List Char :=
  let n := c.toNat
  if c = '\x22' then ['\\', '\x22']
  else if c = '\\' then ['\\', '\\']
  else if c = '\n' then ['\\', 'n']
  else if c = '\r' then ['\\', 'r']
  else if c = '\t' then ['\\', 't']
  else if n = 0x0C then ['\\', 'f']
  else if n = 0x08 then ['\\', 'b']
  else if 0x20 ≤ n ∧ n < 0x7F then [c]
  else if n < 0x10000 then escapeUnit n
  -- Beyond the basic plane a character is written as two halves.
  else escapeUnit (0xD800 + (n - 0x10000) / 0x400) ++ escapeUnit (0xDC00 + (n - 0x10000) % 0x400)

/-- A JSON string. -/
def string (cs : List Char) : List Char := '\x22' :: cs.flatMap escapeChar ++ ['\x22']

/-- Numbers in JSON text have the display form, with longer names for the values that are none. -/
def numberStyle : NumberStyle := { NumberStyle.display with nan := "NaN", infinity := "Infinity" }

/-- A truth value. -/
def truth (b : Bool) : List Char := if b then "true".toList else "false".toList

/-- The name of the kind of a value that cannot be a key. -/
def kindName : Value → String
  | .bytes _ => "bytes"
  | .moment _ => "datetime.datetime"
  | .date _ => "datetime.date"
  | .decimal _ => "decimal.Decimal"
  | .uuid _ => "UUID"
  | .list _ => "list"
  | .tuple _ => "tuple"
  | .dictionary _ => "dict"
  | .record s _ => s.name
  | .null => "NoneType"
  | .bool _ => "bool"
  | .int _ => "int"
  | .double _ => "float"
  | .text _ => "str"
  | .label (.resource _) => "SystemResource"
  | .label (.action _) => "PermissionAction"
  | .label (.scope _) => "PermissionScope"

/-- The text of a key. -/
def keyText : Value → Except BadKey (List Char)
  | .text s => .ok s.toList
  | .label l => .ok l.text.toList
  | .double x => .ok (numberStyle.render x)
  | .bool b => .ok (truth b)
  | .null => .ok "null".toList
  | .int n => .ok (Text.intDigits n)
  | v => .error ⟨kindName v⟩

/-- Joins the texts of members. -/
def members (parts : List (List Char)) : List Char := [',', ' '].intercalate parts

mutual

/-- The JSON text of a value. -/
def encode : Value → Except BadKey (List Char)
  | .null => .ok "null".toList
  | .bool b => .ok (truth b)
  | .int n => .ok (Text.intDigits n)
  | .double x => .ok (numberStyle.render x)
  | .text s => .ok (string s.toList)
  | .label l => .ok (string l.text.toList)
  | .list xs => (encodeList xs).map fun ps => '[' :: members ps ++ [']']
  | .tuple xs => (encodeList xs).map fun ps => '[' :: members ps ++ [']']
  | .dictionary es => (encodeEntries es).map fun ps => '\x7b' :: members ps ++ ['\x7d']
  | v => .ok (string v.display.toList)

/-- The JSON texts of the members of a list. -/
def encodeList : List Value → Except BadKey (List (List Char))
  | [] => .ok []
  | x :: xs => do
    let p ← encode x
    let ps ← encodeList xs
    return p :: ps

/-- The JSON texts of the entries of a dictionary. -/
def encodeEntries : List (Value × Value) → Except BadKey (List (List Char))
  | [] => .ok []
  | (k, v) :: es => do
    let key ← keyText k
    let p ← encode v
    let ps ← encodeEntries es
    return (string key ++ ':' :: ' ' :: p) :: ps

end

end AccessGraph.Json
