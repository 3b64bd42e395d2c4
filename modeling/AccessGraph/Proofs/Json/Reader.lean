import AccessGraph.Json.Encoder
import AccessGraph.Number.Numeral

/-!
# Reading JSON text

`Json.read?` reads a JSON text by the grammar of RFC 8259 and has no value for any other text.  It
is a recursive descent with one function for each production.  Escapes in strings are resolved, and
the two halves of a surrogate pair become one character; a half that stands alone becomes the
replacement character, since the grammar admits it.  A number is an integer unless it has a fraction
or an exponent, and a dictionary keeps all its members in order.

The recursion is bounded by the depth of nesting, and that of a group by the count of its items; no
text has more of either than it has characters.
-/

namespace AccessGraph.Json

open Text (digitsValue hexValue?)

/-! ## Strings -/

/-- The number that four hexadecimal digits denote. -/
def hexUnit? (a b c d : Char) : Option Nat := do
  let a ← hexValue? a
  let b ← hexValue? b
  let c ← hexValue? c
  let d ← hexValue? d
  return ((a * 16 + b) * 16 + c) * 16 + d

/-- The code that stands for a letter behind a backslash. -/
def letterCode? (c : Char) : Option Nat :=
  if c = '\x22' ∨ c = '\\' ∨ c = '/' then some c.toNat
  else if c = 'b' then some 0x08
  else if c = 'f' then some 0x0C
  else if c = 'n' then some 0x0A
  else if c = 'r' then some 0x0D
  else if c = 't' then some 0x09
  else none

/-- Reads the codes of a string up to its closing quote; tells the codes and what follows.  A code
is a code point or, where it is escaped, a UTF-16 unit. -/
def codes? : List Char → Option (List Nat × List Char)
  | [] => none
  -- An escape by number is tried before one by letter, as `u` is no letter of that sort.
  | '\\' :: 'u' :: a :: b :: c :: d :: cs => do
    let n ← hexUnit? a b c d
    let (ns, rest) ← codes? cs
    return (n :: ns, rest)
  | '\\' :: c :: cs => do
    let n ← letterCode? c
    let (ns, rest) ← codes? cs
    return (n :: ns, rest)
  | c :: cs =>
    if c = '\x22' then some ([], cs)
    -- A lone backslash and a control character are no part of a string.
    else if c = '\\' ∨ c.toNat < 0x20 then none
    else (codes? cs).map fun (ns, rest) => (c.toNat :: ns, rest)

/-- Whether a code is the first half of a surrogate pair. -/
def isHighHalf (n : Nat) : Bool := 0xD800 ≤ n && n < 0xDC00

/-- Whether a code is the second half of a surrogate pair. -/
def isLowHalf (n : Nat) : Bool := 0xDC00 ≤ n && n < 0xE000

/-- The character of a code that is in no pair. -/
def codeChar (n : Nat) : Char := if isHighHalf n || isLowHalf n then '\ufffd' else Char.ofNat n

/-- The characters of codes, with the halves of surrogate pairs combined. -/
def ofCodes : List Nat → List Char
  | [] => []
  | [n] => [codeChar n]
  | n :: m :: ns =>
    if isHighHalf n && isLowHalf m then
      Char.ofNat (0x10000 + (n - 0xD800) * 0x400 + (m - 0xDC00)) :: ofCodes ns
    else codeChar n :: ofCodes (m :: ns)

/-- Reads a string behind its opening quote. -/
def text? (cs : List Char) : Option (String × List Char) :=
  (codes? cs).map fun (ns, rest) => (String.ofList (ofCodes ns), rest)

/-! ## Numbers -/

/-- Whether a character can occur in a number. -/
def isNumberChar (c : Char) : Bool :=
  c.isDigit || c = '-' || c = '+' || c = '.' || c = 'e' || c = 'E'

/-- Splits a minus sign off the front. -/
def minus : List Char → Bool × List Char
  | '-' :: cs => (true, cs)
  | cs => (false, cs)

/-- Whether digits are those of a whole number: there are some, and the first of several is not a
zero. -/
def isWhole (ds : List Char) : Bool := !ds.isEmpty && (ds = ['0'] || ds.head? != some '0')

/-- Splits a point with the digits behind it off the front; there may be no point, but not a point
without digits. -/
def fraction? : List Char → Option (List Char × List Char)
  | '.' :: cs =>
    if (cs.takeWhile Char.isDigit).isEmpty then none
    else some (cs.takeWhile Char.isDigit, cs.dropWhile Char.isDigit)
  | cs => some ([], cs)

/-- Reads a whole text as a number. -/
def number? (cs : List Char) : Option Value :=
  let (negative, cs) := minus cs
  let whole := cs.takeWhile Char.isDigit
  let rest := cs.dropWhile Char.isDigit
  if !isWhole whole then none
  else if rest.isEmpty then
    some (.int (if negative then -(digitsValue whole : Int) else digitsValue whole))
  else do
    let (fraction, rest) ← fraction? rest
    let e ← Numeral.exponent? rest
    return .double (Numeral.toDouble
      ⟨negative, digitsValue (whole ++ fraction), e - fraction.length⟩)

/-! ## Values -/

/-- Whether a character may stand between any two tokens. -/
def isSpace (c : Char) : Bool := c = ' ' || c = '\t' || c = '\n' || c = '\r'

/-- The text from its first token on. -/
def skip (cs : List Char) : List Char := cs.dropWhile isSpace

/-- Reads a structural character, with space in front of it, off the front. -/
def token? (c : Char) (cs : List Char) : Option (List Char) :=
  match skip cs with
  | d :: rest => if d = c then some rest else none
  | [] => none

/-- Reads a name or a number off the front. -/
def scalar? : List Char → Option (Value × List Char)
  | 'n' :: 'u' :: 'l' :: 'l' :: cs => some (.null, cs)
  | 't' :: 'r' :: 'u' :: 'e' :: cs => some (.bool true, cs)
  | 'f' :: 'a' :: 'l' :: 's' :: 'e' :: cs => some (.bool false, cs)
  | cs => (number? (cs.takeWhile isNumberChar)).map fun v => (v, cs.dropWhile isNumberChar)

section Groups

variable {α : Type} (item : List Char → Option (α × List Char)) (close : Char)

/-- Reads at most `count` items with commas between them, up to the closing character. -/
def items? : (count : Nat) → List Char → Option (List α × List Char)
  | 0, _ => none
  | count + 1, cs => do
    let (x, cs) ← item cs
    match token? ',' cs with
    | some cs => (items? count cs).map fun (xs, rest) => (x :: xs, rest)
    | none => (token? close cs).map fun rest => ([x], rest)

/-- Reads any number of items with commas between them, up to the closing character. -/
def group? (cs : List Char) : Option (List α × List Char) :=
  match token? close cs with
  | some rest => some ([], rest)
  | none => items? item close cs.length cs

end Groups

/-- Reads a key, a colon and a value off the front. -/
def member? (value : List Char → Option (Value × List Char)) (cs : List Char) :
    Option ((Value × Value) × List Char) := do
  let cs ← token? '\x22' cs
  let (k, cs) ← text? cs
  let cs ← token? ':' cs
  let (v, cs) ← value cs
  return ((.text k, v), cs)

/-- Reads a value with at most `depth` levels off the front; tells the value and what follows. -/
def value? : (depth : Nat) → List Char → Option (Value × List Char)
  | 0, _ => none
  | depth + 1, cs =>
    match skip cs with
    | '\x22' :: cs => (text? cs).map fun (s, rest) => (.text s, rest)
    | '[' :: cs => (group? (value? depth) ']' cs).map fun (xs, rest) => (.list xs, rest)
    | '\x7b' :: cs =>
      (group? (member? (value? depth)) '\x7d' cs).map fun (es, rest) => (.dictionary es, rest)
    | cs => scalar? cs

/-- Reads a JSON text: one value with nothing behind it. -/
def read? (cs : List Char) : Option Value :=
  match value? cs.length cs with
  | some (v, rest) => if (skip rest).isEmpty then some v else none
  | none => none

example : (read? "[1, -2.5e0, \x7b\"a\": true\x7d]".toList).isSome = true := by decide +kernel
example : (read? "[1,]".toList).isSome = false := by decide +kernel

end AccessGraph.Json
