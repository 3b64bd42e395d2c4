import AccessGraph.Calendar.Iso
import AccessGraph.Number.Shortest
import AccessGraph.Text.Quoted
import AccessGraph.Value.Basic

/-!
# Display of values

`Value.shown` displays a value as it appears inside another one, with texts quoted and composite
values in constructor form; `Value.display` displays it on its own, where texts, dates, moments,
decimals and labels are bare.  `Value.pathPart` names a dictionary key in the path of an issue.
-/

namespace AccessGraph

open Text (intText natText quoted quotedBytes)

/-- Joins texts with a comma and a space. -/
def commaSeparated (parts : List String) : String := String.intercalate ", " parts

/-- The constructor form of an offset that was handed in: whole days below zero and the seconds on
top of them. -/
def shownZone (seconds : Int) : String :=
  if seconds = 0 then "datetime.timezone.utc"
  else
    let days := if seconds < 0 then ["days=-1"] else []
    "datetime.timezone(datetime.timedelta("
      ++ commaSeparated (days ++ ["seconds=" ++ intText (seconds.emod 86400)]) ++ "))"

/-- The constructor form of a time zone.  An offset that was read from a configuration is shown by
its seconds, a region by its key. -/
def Zone.shown : Zone → String
  | .given o => shownZone o.seconds
  | .configured o => "TzInfo(" ++ intText o.seconds ++ ")"
  | .region r => "zoneinfo.ZoneInfo(key=" ++ quoted r.key ++ ")"

/-- The constructor form of a date. -/
def Date.shown (d : Date) : String :=
  "datetime.date(" ++ commaSeparated ([d.year, d.month, d.day].map natText) ++ ")"

/-- The constructor form of a moment; seconds and microseconds are left out when they end the list
with zeros, and the reading of the clock when it is the earlier one. -/
def Moment.shown (m : Moment) : String :=
  let d := m.date
  let c := m.clock
  let fraction :=
    if c.micro = 0 then (if c.second = 0 then [] else [c.second]) else [c.second, c.micro]
  let parts := ([d.year, d.month, d.day, c.hour, c.minute] ++ fraction).map natText
  let fold := if m.fold then ["fold=1"] else []
  let zone := m.zone.elim [] fun z => ["tzinfo=" ++ z.shown]
  "datetime.datetime(" ++ commaSeparated (parts ++ fold ++ zone) ++ ")"

namespace Value

/-- The default of a field on display. -/
def shownDefault (field : String) : String :=
  if field = "metadata" then "\x7b\x7d" else if field = "rank" then "0" else "None"

/-- Every field of a record with its value on display, given the displays of the set fields. -/
def fieldTexts (s : Schema) (set : List (String × String)) : List String :=
  s.fieldNames.map fun f => f ++ "=" ++ (set.lookup f).getD (shownDefault f)

mutual

/-- The display of a value inside another one. -/
def shown : Value → String
  | .null => "None"
  | .bool b => if b then "True" else "False"
  | .int n => intText n
  | .double x => x.text
  | .text s => quoted s
  | .bytes bs => quotedBytes bs
  | .moment m => m.shown
  | .date d => d.shown
  | .decimal d => "Decimal(" ++ quoted d.text ++ ")"
  | .uuid u => "UUID(" ++ quoted u.text ++ ")"
  | .label l => "<" ++ l.qualifiedName ++ ": " ++ quoted l.text ++ ">"
  | .list xs => "[" ++ commaSeparated (shownList xs) ++ "]"
  | .tuple [x] => "(" ++ shown x ++ ",)"
  | .tuple xs => "(" ++ commaSeparated (shownList xs) ++ ")"
  | .dictionary es => "\x7b" ++ commaSeparated (shownEntries es) ++ "\x7d"
  | .record s given => s.name ++ "(" ++ commaSeparated (fieldTexts s (shownFields given)) ++ ")"

/-- `shown` on the members of a list. -/
def shownList : List Value → List String
  | [] => []
  | x :: xs => shown x :: shownList xs

/-- The entries of a dictionary on display. -/
def shownEntries : List (Value × Value) → List String
  | [] => []
  | (k, v) :: es => (shown k ++ ": " ++ shown v) :: shownEntries es

/-- The set fields of a record with their values on display. -/
def shownFields : List (String × Value) → List (String × String)
  | [] => []
  | (k, v) :: fs => (k, shown v) :: shownFields fs

end

/-- A dictionary key as a part of a path: a truth value counts as the number 0 or 1. -/
def pathPart : Value → String
  | .bool b => if b then "1" else "0"
  | v => v.shown

/-- The display of a value on its own. -/
def display : Value → String
  | .text s => s
  | .moment m => m.text
  | .date d => d.iso
  | .decimal d => d.text
  | .uuid u => u.text
  | .label l => l.qualifiedName
  | .record s given => String.intercalate " " (fieldTexts s (shownFields given))
  | v => v.shown

end Value

end AccessGraph
