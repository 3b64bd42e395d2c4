import AccessGraph.Calendar.Moment
import AccessGraph.Text.Digits

/-!
# The ISO form of dates and moments

A date is written `YYYY-MM-DD`.  A moment adds a separator, `HH:MM:SS`, six digits of microseconds
when they are not zero, and for an aware moment the offset `±HH:MM`, with seconds when they are not
zero.  `Date.ofIso?` and `Moment.ofIso?` read these forms; a reader takes any single character as
the separator, any count of fraction digits (those after the sixth are dropped), and a `Z` for UTC.
-/

namespace AccessGraph

open Text (fixedDigits digitsValue)

/-- Two decimal digits. -/
def twoDigits (n : Nat) : List Char := fixedDigits 10 2 n

/-- The ISO form of a date. -/
def Date.isoChars (d : Date) : List Char :=
  fixedDigits 10 4 d.year ++ '-' :: twoDigits d.month ++ '-' :: twoDigits d.day

/-- The ISO form of a time of day. -/
def Clock.isoChars (c : Clock) : List Char :=
  twoDigits c.hour ++ ':' :: twoDigits c.minute ++ ':' :: twoDigits c.second
    ++ (if c.micro = 0 then [] else '.' :: fixedDigits 10 6 c.micro)

/-- The ISO form of an offset. -/
def Offset.isoChars (o : Offset) : List Char :=
  let n := o.seconds.natAbs
  (if o.seconds < 0 then '-' else '+') :: twoDigits (n / 3600) ++ ':' :: twoDigits (n / 60 % 60)
    ++ (if n % 60 = 0 then [] else ':' :: twoDigits (n % 60))

/-- The ISO form of a moment with the given separator between date and time. -/
def Moment.isoChars (m : Moment) (separator : Char) : List Char :=
  m.date.isoChars ++ separator :: m.clock.isoChars ++ m.offset.elim [] Offset.isoChars

/-- The ISO form of a date as a text. -/
def Date.iso (d : Date) : String := String.ofList d.isoChars

/-- The ISO form of a moment, with a `T` between date and time. -/
def Moment.iso (m : Moment) : String := String.ofList (m.isoChars 'T')

/-- The display form of a moment, with a space between date and time. -/
def Moment.text (m : Moment) : String := String.ofList (m.isoChars ' ')

/-- Reads exactly `width` decimal digits off the front. -/
def takeDigits? (width : Nat) (cs : List Char) : Option (Nat × List Char) :=
  let ds := cs.take width
  if ds.length = width && ds.all Char.isDigit then some (digitsValue ds, cs.drop width) else none

/-- Reads the given character off the front. -/
def takeChar? (c : Char) : List Char → Option (List Char)
  | d :: cs => if d = c then some cs else none
  | [] => none

/-- The microseconds that the digits of a fraction of a second denote, to six places. -/
def fractionMicros (ds : List Char) : Nat :=
  digitsValue ((ds ++ ['0', '0', '0', '0', '0', '0']).take 6)

/-- Reads year, month and day off the front. -/
def takeDate? (cs : List Char) : Option ((Nat × Nat × Nat) × List Char) := do
  let (year, cs) ← takeDigits? 4 cs
  let cs ← takeChar? '-' cs
  let (month, cs) ← takeDigits? 2 cs
  let cs ← takeChar? '-' cs
  let (day, cs) ← takeDigits? 2 cs
  return ((year, month, day), cs)

/-- Reads `HH:MM`, then perhaps `:SS`, then perhaps a fraction behind one of the given marks. -/
def takeClock? (marks : List Char) (cs : List Char) : Option (Clock × List Char) := do
  let (hour, cs) ← takeDigits? 2 cs
  let cs ← takeChar? ':' cs
  let (minute, cs) ← takeDigits? 2 cs
  match cs with
  | ':' :: cs =>
    let (second, cs) ← takeDigits? 2 cs
    match cs with
    | c :: rest =>
      -- A mark promises a digit at least.
      if c ∈ marks then
        let ds := rest.takeWhile Char.isDigit
        if ds.isEmpty then none
        else
          let clock ← Clock.ofParts? hour minute second (fractionMicros ds)
          return (clock, rest.dropWhile Char.isDigit)
      else
        let clock ← Clock.ofParts? hour minute second 0
        return (clock, cs)
    -- The seconds, and more so their fraction, may be left out.
    | [] =>
      let clock ← Clock.ofParts? hour minute second 0
      return (clock, [])
  | cs =>
    let clock ← Clock.ofParts? hour minute 0 0
    return (clock, cs)

/-- Reads an offset that extends to the end: nothing, `Z`, or a sign with `HH:MM` or `HH:MM:SS`. -/
def isoOffset? (cs : List Char) : Option (Option Offset) := do
  match cs with
  | [] => return none
  | ['Z'] => return some .utc
  | c :: cs =>
    if c = '+' || c = '-' then
      let (hour, cs) ← takeDigits? 2 cs
      let cs ← takeChar? ':' cs
      let (minute, cs) ← takeDigits? 2 cs
      -- An offset shows its seconds only where it has some.
      let second ← match cs with
        | [] => some 0
        | c :: cs => do
          let (second, rest) ← if c = ':' then takeDigits? 2 cs else none
          if rest.isEmpty then some second else none
      if minute < 60 && second < 60 then
        let n : Int := (hour * 60 + minute) * 60 + second
        let offset ← Offset.ofSeconds? (if c = '-' then -n else n)
        return some offset
      else none
    else none

/-- Reads the ISO form of a date. -/
def Date.ofIso? (s : String) : Option Date := do
  let ((year, month, day), rest) ← takeDate? s.toList
  if rest.isEmpty then Date.ofParts? year month day else none

/-- Reads the ISO form of a moment. -/
def Moment.ofIso? (s : String) : Option Moment := do
  let ((year, month, day), rest) ← takeDate? s.toList
  let date ← Date.ofParts? year month day
  match rest with
  | [] => return Moment.ofDate date
  | _ :: cs =>
    let (clock, cs) ← takeClock? ['.', ','] cs
    let offset ← isoOffset? cs
    return ⟨date, clock, offset.map .given, false⟩

end AccessGraph
