import AccessGraph.Number.Numeral

/-!
# Exact decimals

Decimal numbers that keep the places they were written with: `1.50` and `1.5` are equal in value
and different in form.  The display form is positional while no zeros have to be invented on the
left of the point and at most five after it, and scientific otherwise.
-/

namespace AccessGraph

/-- An exact decimal. -/
inductive Decimal where
  | number (value : Numeral)
  | infinite (negative : Bool)
  | nan (negative signaling : Bool) (payload : Option Nat)
  deriving DecidableEq, Repr

namespace Decimal

/-- Reads a name of a value that is no number, with the digits of its payload. -/
def nan? (negative : Bool) (cs : List Char) : Option Decimal :=
  let (signaling, cs) := match cs with
    | 's' :: r => (true, r)
    | r => (false, r)
  match cs with
  | 'n' :: 'a' :: 'n' :: ds =>
    if ds.all Char.isDigit then
      some (.nan negative signaling
        (if Text.digitsValue ds = 0 then none else some (Text.digitsValue ds)))
    else none
  | _ => none

/-- Reads an exact decimal. -/
def ofText? (s : String) : Option Decimal :=
  let (negative, cs) := Numeral.sign s.toList
  let name := cs.map Char.toLower
  if name = "inf".toList || name = "infinity".toList then some (.infinite negative)
  else match nan? negative name with
    | some d => some d
    | none => (Numeral.ofChars? s.toList).map .number

/-- The display form of the digits `ds` counted in units of `10^scale`. -/
def digitsText (ds : List Char) (scale : Int) : List Char :=
  let left := scale + ds.length
  let point := if scale ≤ 0 ∧ -6 < left then left else 1
  let body :=
    if point ≤ 0 then '0' :: '.' :: (List.replicate (-point).toNat '0' ++ ds)
    else if ds.length ≤ point.toNat then ds ++ List.replicate (point.toNat - ds.length) '0'
    else ds.take point.toNat ++ '.' :: ds.drop point.toNat
  if left = point then body
  else body ++ 'E' :: (if left < point then [] else ['+']) ++ Text.intDigits (left - point)

/-- The display form. -/
def text (d : Decimal) : String :=
  let signed := fun (negative : Bool) (cs : List Char) =>
    String.ofList (if negative then '-' :: cs else cs)
  match d with
  | .number n => signed n.negative (digitsText (Text.natDigits n.digits) n.scale)
  | .infinite negative => signed negative "Infinity".toList
  | .nan negative signaling payload =>
    signed negative ((if signaling then ['s'] else []) ++ "NaN".toList
      ++ (payload.map Text.natDigits).getD [])

/-- The nearest binary64 number; the signaling values have none. -/
def toDouble? : Decimal → Option Double
  | .number n => some n.toDouble
  | .infinite negative => some (.infinite negative)
  | .nan _ true _ => none
  | .nan _ false _ => some .nan

/-- Whether the number is a zero, however it is written. -/
def isZero : Decimal → Bool
  | .number n => n.digits == 0
  | _ => false

/-- The numeral of a number. -/
def numeral? : Decimal → Option Numeral
  | .number n => some n
  | _ => none

example : (ofText? "1.50").map text = some "1.50" := by decide +kernel
example : (ofText? "1e3").map text = some "1E+3" := by decide +kernel
example : (ofText? "0.0000001").map text = some "1E-7" := by decide +kernel
example : (ofText? "-0.00").map text = some "-0.00" := by decide +kernel

end Decimal

end AccessGraph
