/-!
# Log records

What happens is told in records, each with a level.  A threshold lets the records of its own level
and of the higher ones pass.  Thresholds are chosen by name, in any case; an unknown name chooses
the threshold of plain information.  Two names are taken by the layout of records and choose none.
-/

namespace AccessGraph

/-- The level of a record. -/
inductive Level where
  | debug | info | warning | error | critical
  deriving DecidableEq, Repr

namespace Level

/-- The rank of a level. -/
def rank : Level → Nat
  | .debug => 10
  | .info => 20
  | .warning => 30
  | .error => 40
  | .critical => 50

/-- The name of a level. -/
def name : Level → String
  | .debug => "DEBUG"
  | .info => "INFO"
  | .warning => "WARNING"
  | .error => "ERROR"
  | .critical => "CRITICAL"

end Level

/-- A record of a log. -/
structure LogRecord where
  level : Level
  text : String
  deriving DecidableEq, Repr

/-- The rank from which on records pass. -/
abbrev Threshold := Nat

/-- Why a name chooses no threshold. -/
inductive ThresholdFault where
  /-- The name is that of the basic layout of a record. -/
  | layout
  /-- The name is that of the table of layout styles. -/
  | styles
  deriving DecidableEq, Repr

/-- What is wrong with a name that chooses no threshold: it stands for something else, which is
shown. -/
def ThresholdFault.message : ThresholdFault → String
  | .layout => "Unknown level: '%(levelname)s:%(name)s:%(message)s'"
  | .styles =>
    "Level not an integer or a valid string: \x7b"
      ++ "'%': (<class 'logging.PercentStyle'>, '%(levelname)s:%(name)s:%(message)s'), "
      ++ "'\x7b': (<class 'logging.StrFormatStyle'>, "
      ++ "'\x7blevelname\x7d:\x7bname\x7d:\x7bmessage\x7d'), "
      ++ "'$': (<class 'logging.StringTemplateStyle'>, "
      ++ "'$\x7blevelname\x7d:$\x7bname\x7d:$\x7bmessage\x7d')\x7d"

namespace Threshold

/-- The threshold before one is chosen. -/
def initial : Threshold := Level.warning.rank

/-- The upper-case form of a character, as far as it consists of letters from `A` to `Z`: beside
the lower-case letters of ASCII these are a dotless and a long letter, and the ligatures. -/
def upperLetters (c : Char) : List Char :=
  if c = 'ı' then ['I']
  else if c = 'ſ' then ['S']
  else if c = 'ß' then ['S', 'S']
  else if c = 'ﬀ' then ['F', 'F']
  else if c = 'ﬁ' then ['F', 'I']
  else if c = 'ﬂ' then ['F', 'L']
  else if c = 'ﬃ' then ['F', 'F', 'I']
  else if c = 'ﬄ' then ['F', 'F', 'L']
  else if c = 'ﬅ' || c = 'ﬆ' then ['S', 'T']
  else [c.toUpper]

/-- The thresholds by their names; two have a second name, and one lets everything pass. -/
def known : List (String × Threshold) :=
  [("CRITICAL", 50), ("FATAL", 50), ("ERROR", 40), ("WARNING", 30), ("WARN", 30), ("INFO", 20),
   ("DEBUG", 10), ("NOTSET", 0)]

/-- The names that are taken by the layout of records. -/
def taken : List (String × ThresholdFault) := [("BASIC_FORMAT", .layout), ("_STYLES", .styles)]

/-- The threshold of the given name. -/
def ofName (name : String) : Except ThresholdFault Threshold :=
  let name := String.ofList (name.toList.flatMap upperLetters)
  match taken.lookup name with
  | some fault => .error fault
  | none => .ok ((known.lookup name).getD Level.info.rank)

example : (ofName "Warn").toOption = some 30 := by decide +kernel
example : (ofName "verbose").toOption = some 20 := by decide +kernel
example : (ofName "basic_format").toOption = none := by decide +kernel

/-- The records that pass. -/
def select (t : Threshold) (log : List LogRecord) : List LogRecord :=
  log.filter fun record => t ≤ record.level.rank

end Threshold

end AccessGraph
