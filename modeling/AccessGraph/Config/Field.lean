import AccessGraph.Config.Issue

/-!
# Checks of single fields

One check for each kind of field: texts of bounded length, enumerated words, truth values, ranks,
moments and tables.  Each accepts every value that denotes a member of its kind and returns that
member; `required` and `optional` apply a check to a named field of a dictionary.
-/

namespace AccessGraph.Field

/-- A check of a value. -/
abbrev Check (α : Type) := Value → Checked α

/-- A text, a label, or the bytes of a UTF-8 text. -/
def text : Check String
  | .text s => .ok s
  | .label l => .ok l.text
  | .bytes bs =>
    match Text.ofUtf8? bs with
    | some s => .ok s
    | none => .fail .notUtf8
  | _ => .fail .notText

/-- A text of at least `least` and, if there is a bound, at most `most` characters. -/
def boundedText (least : Nat) (most : Option Nat) : Check String := fun v =>
  (text v).andThen fun s =>
    if s.length < least then .fail (.tooShort least)
    else match most with
      | some n => if n < s.length then .fail (.tooLong n) else .ok s
      | none => .ok s

/-- An absent value, or one that passes the check. -/
def nullable {α : Type} (check : Check α) : Check (Option α)
  | .null => .ok none
  | v => (check v).map some

/-- A word of an enumeration, by its text. -/
def word {α : Type} (values : List α) (wordText : α → String) : Check α := fun v =>
  let found := match text v with
    | .ok s => values.find? (wordText · == s)
    | .bad _ => none
  match found with
  | some a => .ok a
  | none => .fail (.notOneOf (values.map wordText))

/-- The texts that denote a truth value, in lower case. -/
def flagTexts (b : Bool) : List String :=
  if b then ["1", "on", "t", "true", "y", "yes"] else ["0", "off", "f", "false", "n", "no"]

/-- The truth value that a text denotes, in any case. -/
def flagOfText (s : String) : Checked Bool :=
  let word := Text.asciiLower s
  if word ∈ flagTexts true then .ok true
  else if word ∈ flagTexts false then .ok false
  else .fail .unclearFlag

/-- The truth value that an integer denotes.  Only integers of 64 bits come into question. -/
def flagOfInt (n : Int) : Checked Bool :=
  if n = 1 then .ok true
  else if n = 0 then .ok false
  else if isWord n then .fail .unclearFlag
  else .fail .notFlag

/-- The truth value that a binary64 number denotes.  An integral number counts as that integer,
except the least integer of 64 bits. -/
def flagOfDouble (x : Double) : Checked Bool :=
  match x.toInt? with
  | some n => if n = -(pow2 63 : Int) then .fail .notFlag else flagOfInt n
  | none => .fail .notFlag

/-- A truth value, a number equal to 0 or 1, or a text that denotes a truth value. -/
def flag : Check Bool
  | .bool b => .ok b
  | .int n => flagOfInt n
  | .double x => flagOfDouble x
  | .decimal d => (d.toDouble?.map flagOfDouble).getD (.fail .notFlag)
  | .text s => flagOfText s
  | .label l => flagOfText l.text
  | .bytes bs => ((Text.ofUtf8? bs).map flagOfText).getD (.fail .unclearFlag)
  | _ => .fail .notFlag

/-- An integer within closed bounds. -/
def boundedInt (least most : Int) : Check Int
  | .int n =>
    if n < least then .fail (.below least)
    else if most < n then .fail (.above most)
    else .ok n
  | _ => .fail .notInteger

/-- A checked moment that was read from a text or a number. -/
def ofMoment : Except MomentFault Moment → Checked Moment
  | .ok m => .ok m.configured
  | .error fault => .fail (.moment fault)

/-- A moment, a date, or a text or number that denotes a moment.  Bytes that are no UTF-8 text are
reported like a text of as many characters. -/
def moment : Check Moment
  | .moment m => .ok m
  | .date d => .ok (Moment.ofDate d)
  | .text s => ofMoment (Moment.ofText s)
  | .label l => ofMoment (Moment.ofText l.text)
  | .bytes bs =>
    match Text.ofUtf8? bs with
    | some s => ofMoment (Moment.ofText s)
    | none =>
      -- Bytes that are no text are looked at as a date all the same, byte by byte.
      let fault := dateFault bs.length (bs.map fun b => Char.ofNat b.toNat)
      .fail (.moment (.notDate fault))
  | .int n =>
    -- An integer beyond 64 bits is taken as the double next to it.
    if isWord n then ofMoment (Moment.ofInt false n)
    else match Double.ofInt n with
      | .infinite _ => .fail (.moment .notMoment)
      | x => ofMoment (Moment.ofDouble x)
  | .double x => ofMoment (Moment.ofDouble x)
  | .decimal d => ofMoment ((d.toDouble?.map Moment.ofDouble).getD (.error .notMoment))
  | _ => .fail (.moment .notMoment)

/-- Enters a text key with its value into a table; an equal key keeps its place. -/
def insertText (t : Table) (k : String) (v : Value) : Table :=
  if t.any (·.1 == k) then t.map fun e => if e.1 == k then (k, v) else e else t ++ [(k, v)]

/-- Checks the keys of a dictionary, one after another, and enters them into a table. -/
def tableOf : Entries → Table → Checked Table
  | [], t => .ok t
  | (k, v) :: es, t =>
    match text k with
    | .ok s => tableOf es (insertText t s v)
    | .bad is =>
      Checked.both (.bad (is.map fun i => { i with path := [k.pathPart, "[key]"] }))
        (tableOf es t)

/-- A dictionary whose keys are texts; its values may be anything. -/
def table : Check Table
  | .dictionary es => tableOf es []
  | _ => .fail .notDictionary

/-- A field that has to be there. -/
def required {α : Type} (es : Entries) (name : String) (check : Check α) : Checked α :=
  match Value.find? es name with
  | some v => (check v).under name
  | none => (Checked.fail .missing).under name

/-- A field with a default. -/
def optional {α : Type} (es : Entries) (name : String) (default : α) (check : Check α) :
    Checked α :=
  match Value.find? es name with
  | some v => (check v).under name
  | none => .ok default

end AccessGraph.Field
