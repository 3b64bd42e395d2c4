import AccessGraph.Text.Digits
import AccessGraph.Text.Printable

/-!
# Quoted display of text and bytes

A text is displayed between single quotes, or between double quotes when it holds a single quote
and no double one.  The delimiter and the backslash take a backslash in front, the three common
controls have letters of their own, and what cannot be printed is written by its code point with
as few of two, four or eight hexadecimal digits as hold it.  Bytes are displayed the same way
behind a letter `b`, where every byte outside printable ASCII is escaped.
-/

namespace AccessGraph.Text

/-- The quote that delimits the display of a text with these characters. -/
def delimiter (cs : List Char) : Char :=
  if cs.contains '\x27' && !cs.contains '\x22' then '\x22' else '\x27'

/-- A character written by its code point. -/
def escapeCode (n : Nat) : List Char :=
  if n ≤ 0xFF then ['\\', 'x'] ++ fixedDigits 16 2 n
  else if n ≤ 0xFFFF then ['\\', 'u'] ++ fixedDigits 16 4 n
  else ['\\', 'U'] ++ fixedDigits 16 8 n

/-- A character inside a quoted text delimited by `mark`, when `shown` tells which characters show
themselves. -/
def quotedChar (mark : Char) (shown : Char → Bool) (c : Char) : List Char :=
  if c = mark || c = '\\' then ['\\', c]
  else if c = '\n' then ['\\', 'n']
  else if c = '\r' then ['\\', 'r']
  else if c = '\t' then ['\\', 't']
  else if shown c then [c]
  else escapeCode c.toNat

/-- The quoted display of a text. -/
def quoted (s : String) : String :=
  let mark := delimiter s.toList
  String.ofList (mark :: s.toList.flatMap (quotedChar mark isPrintable) ++ [mark])

/-- Whether a byte, read as a character, is printable ASCII. -/
def isPlainAscii (c : Char) : Bool := 0x20 ≤ c.toNat && c.toNat < 0x7F

/-- The quoted display of a byte sequence. -/
def quotedBytes (bytes : List UInt8) : String :=
  let cs := bytes.map fun b => Char.ofNat b.toNat
  let mark := delimiter cs
  String.ofList ('b' :: mark :: cs.flatMap (quotedChar mark isPlainAscii) ++ [mark])

/-- The text that a byte sequence encodes in UTF-8, if it does. -/
def ofUtf8? (bytes : List UInt8) : Option String :=
  String.fromUTF8? ⟨bytes.toArray⟩

end AccessGraph.Text
