import AccessGraph.Calendar.Iso
import AccessGraph.Number.Numeral

/-!
# Reading moments from configuration

A moment is configured as a text or as a number.  A text is a date, optionally followed by one of
`T`, `t`, a space or an underscore, a time of day and an offset; or it is a number, an integer of 64
bits or a decimal numeral with a point.  A number counts the seconds since 1970 in UTC, or the
milliseconds once it exceeds twenty thousand million, and is taken to the nearest microsecond.
Every text that is neither, and every numeral with a point that leaves the years, is reported by the
first problem met when it is read as a bare date.
-/

namespace AccessGraph

/-- Why a text is no date. -/
inductive DateFault where
  | tooShort
  | yearCharacter
  | separator
  | monthCharacter
  | dayCharacter
  | month
  | day
  | extraCharacters
  deriving DecidableEq, Repr

/-- Why a value is no moment.  `fromText` tells an integer written as a text from a number. -/
inductive MomentFault where
  | notMoment
  | notDate (fault : DateFault)
  | tooEarly (fromText : Bool)
  | tooLate (fromText : Bool)
  | notANumber
  | yearZero
  deriving DecidableEq, Repr

/-- What is wrong with a text that is no date. -/
def DateFault.message : DateFault → String
  | .tooShort => "input is too short"
  | .yearCharacter => "invalid character in year"
  | .separator => "invalid date separator, expected \x60-\x60"
  | .monthCharacter => "invalid character in month"
  | .dayCharacter => "invalid character in day"
  | .month => "month value is outside expected range of 1-12"
  | .day => "day value is outside expected range"
  | .extraCharacters => "unexpected extra characters at the end of the input"

/-- What is wrong with a value that is no moment. -/
def MomentFault.message : MomentFault → String
  | .notMoment => "Input should be a valid datetime"
  | .notDate fault => "Input should be a valid datetime or date, " ++ fault.message
  | .tooEarly fromText =>
    expected fromText ++ "dates before 0000 are not supported as unix timestamps"
  | .tooLate fromText =>
    expected fromText ++ "dates after 9999 are not supported as unix timestamps"
  | .notANumber => expected false ++ "NaN values not permitted"
  | .yearZero => "Input should be a valid datetime, year 0 is out of range"
where
  /-- What was expected of the input. -/
  expected (fromText : Bool) : String :=
    if fromText then "Input should be a valid datetime or date, "
    else "Input should be a valid datetime, "

/-- The year, month and day of a bare date at the front, where year 0 counts as a year, and what
follows them; or the first problem. -/
def bareDate (cs : List Char) : Except DateFault ((Nat × Nat × Nat) × List Char) := do
  let some (year, cs) := takeDigits? 4 cs | .error .yearCharacter
  let some cs := takeChar? '-' cs | .error .separator
  let some (month, cs) := takeDigits? 2 cs | .error .monthCharacter
  let some cs := takeChar? '-' cs | .error .separator
  let some (day, cs) := takeDigits? 2 cs | .error .dayCharacter
  if month < 1 || 12 < month then .error .month
  else if day < 1 || monthLength year month < day then .error .day
  else return ((year, month, day), cs)

/-- The first problem of a text of `size` bytes that is read as a bare date. -/
def dateFault (size : Nat) (cs : List Char) : DateFault :=
  if size < 10 then .tooShort
  else match bareDate cs with
    | .error fault => fault
    | .ok _ => .extraCharacters

/-- Reads an offset that extends to the end: nothing, `Z`, or a sign with `HH:MM` or `HHMM`.  The
sign may be a mathematical minus. -/
def configuredOffset? (cs : List Char) : Option (Option Offset) :=
  match cs with
  | [] => some none
  | ['Z'] => some (some .utc)
  | ['z'] => some (some .utc)
  | c :: cs =>
    -- The minus of typography counts as well.
    if c = '+' || c = '-' || c = '\u2212' then
      do
        let (hour, cs) ← takeDigits? 2 cs
        -- The colon may be left out.
        let (minute, cs) ← takeDigits? 2 ((takeChar? ':' cs).getD cs)
        if cs.isEmpty && hour < 24 && minute < 60 then
          let n : Int := (hour * 60 + minute) * 60
          let offset ← Offset.ofSeconds? (if c = '+' then n else -n)
          return some offset
        else none
    else none

/-- Reads the time of day and the offset that follow a date. -/
def configuredTime? (cs : List Char) : Option (Clock × Option Offset) :=
  match cs with
  | [] => some (.midnight, none)
  | c :: cs =>
    if c ∈ ['T', 't', ' ', '_'] then
      do
        let (clock, cs) ← takeClock? ['.', ','] cs
        let offset ← configuredOffset? cs
        return (clock, offset)
    else none

/-- The microseconds from the start of year 1 to the start of 1970. -/
def epochMicros : Int := 719162 * dayMicros

/-- Beyond this magnitude a number counts milliseconds. -/
def millisecondThreshold : Nat := 20000000000

/-- The moment so many microseconds after the start of 1970. -/
def Moment.ofEpochMicros (fromText : Bool) (micros : Int) : Except MomentFault Moment :=
  let seconds := micros.fdiv 1000000
  if seconds < -62167219200 then .error (.tooEarly fromText)
  else if 253402300799 < seconds then .error (.tooLate fromText)
  else match Moment.ofInstant? (micros + epochMicros) with
    | some m => .ok m
    | none => .error .yearZero

/-- The moment that an integer denotes. -/
def Moment.ofInt (fromText : Bool) (n : Int) : Except MomentFault Moment :=
  Moment.ofEpochMicros fromText (if n.natAbs ≤ millisecondThreshold then n * 1000000 else n * 1000)

/-- The microseconds in a fraction `num / den` of a unit of so many microseconds.  The fraction and
its product with the unit are binary64 numbers; an exact half counts as a whole microsecond. -/
def unitMicros (unit num den : Nat) : Nat :=
  let (a, b) := Double.roundRatio num den
  let (c, d) := Double.roundRatio (a * unit) b
  roundHalfUp c d

example : unitMicros 1000000 1 128 = 7813 := by decide +kernel
example : unitMicros 1000000 127 128 = 992188 := by decide +kernel

/-- The moment that a binary64 number denotes: so many whole units below the number, and on top of
them the fraction that is left. -/
def Moment.ofDouble : Double → Except MomentFault Moment
  | .nan => .error .notANumber
  | .infinite true => .error (.tooEarly false)
  | .infinite false => .error (.tooLate false)
  | .finite negative m e =>
    let (a, b) := Double.magnitude m e
    let unit := if a ≤ millisecondThreshold * b then 1000000 else 1000
    let n : Int := if negative then -(a : Int) else a
    let whole := n.fdiv b
    Moment.ofEpochMicros false (whole * unit + unitMicros unit (n.fmod b).toNat b)

/-- Reads a number.  Without a point it is an integer, which has to fit in 64 bits; only with a
point may it have an exponent. -/
def plainNumber? (cs : List Char) : Option (Int ⊕ Double) :=
  let (negative, ds) := Numeral.sign cs
  let whole := ds.takeWhile Char.isDigit
  match ds.dropWhile Char.isDigit with
  | [] =>
    let n : Int := Text.digitsValue whole
    let n := if negative then -n else n
    if !whole.isEmpty && isWord n then some (.inl n) else none
  | '.' :: _ => (Numeral.ofChars? cs).map (.inr ·.toDouble)
  | _ => none

/-- Reads a moment from a text. -/
def Moment.ofText (s : String) : Except MomentFault Moment :=
  let noDate := Except.error (.notDate (dateFault s.utf8ByteSize s.toList))
  let dated := match bareDate s.toList with
    | .ok (parts, rest) => (configuredTime? rest).map (parts, ·)
    | .error _ => none
  match dated with
  | some ((year, month, day), clock, offset) =>
    match Date.ofParts? year month day with
    | some date => .ok ⟨date, clock, offset.map .given, false⟩
    | none => .error .yearZero
  | none =>
    -- What is no date may be a number of seconds or milliseconds.
    match plainNumber? s.toList with
    | some (.inl n) => Moment.ofInt true n
    | some (.inr x) =>
      match Moment.ofDouble x with
      | .ok m => .ok m
      | .error .yearZero => .error .yearZero
      -- A number of the wrong size is told as if it had been meant as a date.
      | .error _ => noDate
    | none => noDate

end AccessGraph
