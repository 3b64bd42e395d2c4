import AccessGraph.Number.Double
import AccessGraph.Text.Digits

/-!
# Shortest decimal forms

The decimal form of a binary64 number is the one with the fewest significant digits among the
decimals that round back to it; of two with equally many digits the nearer one is taken, and of two
equally near the even one.  `shortestDigits` finds it by exact arithmetic: for one, two, … digits it
tests the two decimals of that length that enclose the number.  A `NumberStyle` says how the digits
are then set out.
-/

namespace AccessGraph

namespace Double

/-- The count of decimal digits of a positive number. -/
def digitCount (n : Nat) : Nat := (Nat.toDigits 10 n).length

/-- The `k` with `10^(k-1) ≤ num / den < 10^k`, for positive `num` and `den`. -/
def decimalPoint (num den : Nat) : Int :=
  if den ≤ num then digitCount (num / den)
  else
    let d := digitCount (den / num)
    if num * pow10 (d - 1) = den then 2 - d else 1 - d

/-- The quotient `num / den` in units of `10^unit`. -/
def inUnits (num den : Nat) (unit : Int) : Nat × Nat :=
  if 0 ≤ unit then (num, den * pow10 unit.toNat) else (num * pow10 (-unit).toNat, den)

/-- The bounds of the numbers that round to `m · 2^e`, and that number itself between them, all in
units of `2^(e-2)`. -/
def neighbourhood (m : Nat) (e : Int) : Nat × Nat × Nat :=
  let below := if m = pow2 52 ∧ minExponent < e then 1 else 2
  (4 * m - below, 4 * m, 4 * m + 2)

/-- Whether `d / unitDen`, in units of `2^(e-2)`, rounds back to the significand `m`. -/
def roundsBack (m : Nat) (low high : Nat) (d : Nat × Nat) : Bool :=
  if m % 2 = 0 then low * d.2 ≤ d.1 && d.1 ≤ high * d.2
  else low * d.2 < d.1 && d.1 < high * d.2

/-- The decimal with `count` significant digits that is nearest to `m · 2^e` among those that round
back to it: its digits as one number, and the power of ten that they count. -/
def candidate? (m : Nat) (e : Int) (count : Nat) : Option (Nat × Int) :=
  let (low, value, high) := neighbourhood m e
  -- `m · 2^e = num / den`
  let (num, den) := magnitude m e
  let unit := decimalPoint num den - count
  let (a, b) := inUnits num den unit
  let down := a / b
  let up := down + 1
  -- a decimal `d` on this grid, in units of `2^(e-2)`, is `4 · m · d · b / a`
  let place := fun d => (value * d * b, a)
  let twice := 2 * a
  let preferUp := (down + up) * b < twice ∨ ((down + up) * b = twice ∧ down % 2 = 1)
  let inside := fun d => roundsBack m low high (place d)
  if preferUp then
    if inside up then some (up, unit) else if inside down then some (down, unit) else none
  else
    if inside down then some (down, unit) else if inside up then some (up, unit) else none

/-- The first hit among the counts `count`, `count + 1`, … of significant digits. -/
def searchDigits (m : Nat) (e : Int) : (fuel : Nat) → (count : Nat) → Nat × Int
  | 0, _ => (0, 0)
  | fuel + 1, count =>
    match candidate? m e count with
    | some d => d
    | none => searchDigits m e fuel (count + 1)

/-- The shortest decimal for `m · 2^e`, `m` positive.  Seventeen digits always suffice. -/
def shortestDigits (m : Nat) (e : Int) : Nat × Int := searchDigits m e 17 1

end Double

/-- How the digits of a number are set out. -/
structure NumberStyle where
  /-- The least decimal exponent that is written without an exponent mark. -/
  leastPlain : Int
  /-- The greatest decimal exponent that is written without an exponent mark. -/
  greatestPlain : Int
  /-- The least count of digits after the exponent mark. -/
  exponentDigits : Nat
  /-- The text for the value that is no number. -/
  nan : String
  /-- The text for the positive infinity; the negative one has a minus sign in front. -/
  infinity : String

namespace NumberStyle

/-- Digits `ds` before which the decimal point stands `point` places to the right of the start. -/
def plain (ds : List Char) (point : Int) : List Char :=
  if point ≤ 0 then '0' :: '.' :: (List.replicate (-point).toNat '0' ++ ds)
  else if point.toNat < ds.length then ds.take point.toNat ++ '.' :: ds.drop point.toNat
  else ds ++ List.replicate (point.toNat - ds.length) '0' ++ ['.', '0']

/-- Digits `ds` with one of them before the point and the exponent after the mark. -/
def scientific (exponentDigits : Nat) (ds : List Char) (exponent : Int) : List Char :=
  let power := Text.natDigits exponent.natAbs
  let fraction := if ds.length ≤ 1 then [] else '.' :: ds.drop 1
  ds.take 1 ++ fraction ++ 'e' :: (if exponent < 0 then '-' else '+')
    :: (List.replicate (exponentDigits - power.length) '0' ++ power)

/-- The digits of `n · 10^unit` without zeros at the end, and the place of the point. -/
def digitsAndPoint (n : Nat) (unit : Int) : List Char × Int :=
  let ds := Text.natDigits n
  ((ds.reverse.dropWhile (· = '0')).reverse, ds.length + unit)

/-- The text of a number. -/
def render (style : NumberStyle) : Double → List Char
  | .nan => style.nan.toList
  | .infinite false => style.infinity.toList
  | .infinite true => '-' :: style.infinity.toList
  | .finite negative 0 _ => (if negative then ['-'] else []) ++ ['0', '.', '0']
  | .finite negative m e =>
    let (n, unit) := Double.shortestDigits m e
    let (ds, point) := digitsAndPoint n unit
    let sign := if negative then ['-'] else []
    if style.leastPlain ≤ point - 1 ∧ point - 1 ≤ style.greatestPlain then sign ++ plain ds point
    else sign ++ scientific style.exponentDigits ds (point - 1)

/-- Numbers on display are positional from 10^-4 up to below 10^16, keep a digit after the point,
and have at least two digits in the exponent. -/
def display : NumberStyle := ⟨-4, 15, 2, "nan", "inf"⟩

end NumberStyle

/-- The display form of a binary64 number. -/
def Double.text (x : Double) : String := String.ofList (NumberStyle.display.render x)

example : (Double.ofDecimal false 1 (-1)).text = "0.1" := by decide +kernel
example : (Double.ofDecimal true 123 0).text = "-123.0" := by decide +kernel
example : (Double.ofDecimal false 1 16).text = "1e+16" := by decide +kernel
example : (Double.ofDecimal false 12 (-6)).text = "1.2e-05" := by decide +kernel
example : (Double.ofDecimal false 5 (-324)).text = "5e-324" := by decide +kernel

end AccessGraph
