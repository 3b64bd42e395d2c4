import AccessGraph.Number.Double
import AccessGraph.Text.Digits

/-!
# Decimal numerals

A numeral is an optional sign, digits with an optional point among them or at either end, and an
optional power of ten.  `Numeral.ofChars?` reads one; binary64 numbers and exact decimals are read
through it.  `Numeral.normal` is the one numeral without zeros at the end that has the same value,
so values are compared without forming the power of ten.
-/

namespace AccessGraph

/-- The value `±digits · 10^scale` of a decimal numeral.  The scale remembers the places written
after the point, so `1.50` and `1.5` are different numerals. -/
structure Numeral where
  negative : Bool
  digits : Nat
  scale : Int
  deriving DecidableEq, Repr

namespace Numeral

/-- Splits a sign off the front; no sign means plus. -/
def sign : List Char → Bool × List Char
  | '-' :: cs => (true, cs)
  | '+' :: cs => (false, cs)
  | cs => (false, cs)

/-- The exponent written after the digits; nothing means zero. -/
def exponent? : List Char → Option Int
  | [] => some 0
  | c :: cs =>
    let (negative, ds) := sign cs
    if (c = 'e' || c = 'E') && !ds.isEmpty && ds.all Char.isDigit then
      some (if negative then -(Text.digitsValue ds : Int) else Text.digitsValue ds)
    else none

/-- Reads a whole character list as a numeral. -/
def ofChars? (cs : List Char) : Option Numeral :=
  let (negative, cs) := sign cs
  let whole := cs.takeWhile Char.isDigit
  let rest := cs.dropWhile Char.isDigit
  let (fraction, rest) := match rest with
    | '.' :: r => (r.takeWhile Char.isDigit, r.dropWhile Char.isDigit)
    | r => ([], r)
  if whole.isEmpty && fraction.isEmpty then none
  else (exponent? rest).map fun e =>
    ⟨negative, Text.digitsValue (whole ++ fraction), e - fraction.length⟩

/-- The nearest binary64 number. -/
def toDouble (n : Numeral) : Double := Double.ofDecimal n.negative n.digits n.scale

/-- Moves the zeros at the end of the digits into the scale. -/
def trimZeros (digits : Nat) (scale : Int) : Nat × Int :=
  if 0 < digits ∧ digits % 10 = 0 then trimZeros (digits / 10) (scale + 1) else (digits, scale)
termination_by digits
decreasing_by omega

/-- The numeral of the same value without zeros at the end; zero is unsigned and of scale 0. -/
def normal (n : Numeral) : Numeral :=
  if n.digits = 0 then ⟨false, 0, 0⟩
  else
    let (digits, scale) := trimZeros n.digits n.scale
    ⟨n.negative, digits, scale⟩

/-- Whether two numerals have the same value. -/
def sameValue (a b : Numeral) : Bool := a.normal == b.normal

/-- The numeral of an integer. -/
def ofInt (n : Int) : Numeral := ⟨n < 0, n.natAbs, 0⟩

end Numeral

/-- The numeral of exactly the same value, for a finite number. -/
def Double.toNumeral? : Double → Option Numeral
  | .finite negative m e =>
    if 0 ≤ e then some ⟨negative, m * pow2 e.toNat, 0⟩
    else some ⟨negative, m * pow5 (-e).toNat, e⟩
  | _ => none

/-- Reads a binary64 number: a numeral, or the name of an infinity or of the value that is no
number, in any case. -/
def Double.ofText? (s : String) : Option Double :=
  let (negative, cs) := Numeral.sign s.toList
  let name := String.ofList (cs.map Char.toLower)
  if name = "nan" then some .nan
  else if name = "inf" || name = "infinity" then some (.infinite negative)
  else (Numeral.ofChars? s.toList).map Numeral.toDouble

end AccessGraph
