import AccessGraph.Number.Power

/-!
# Binary64 numbers

The numbers of the IEEE binary64 format as exact values: a sign, a significand below 2^53 and a
power of two not below 2^-1074.  `Double.ofRatio` rounds a rational number to the nearest such
value, ties to the even significand, so reading a decimal text is one exact division.  No machine
float occurs here.
-/

namespace AccessGraph

/-- A binary64 number.  `finite negative significand exponent` is `±significand · 2^exponent`. -/
inductive Double where
  | nan
  | infinite (negative : Bool)
  | finite (negative : Bool) (significand : Nat) (exponent : Int)
  deriving DecidableEq, Repr

/-- The quotient `num / den` rounded to the nearest integer, an exact half to the even one. -/
def roundHalfEven (num den : Nat) : Nat :=
  let q := num / den
  let r := num % den
  if 2 * r < den then q else if den < 2 * r then q + 1 else if q % 2 = 0 then q else q + 1

/-- The quotient `num / den` rounded to the nearest integer, an exact half upwards. -/
def roundHalfUp (num den : Nat) : Nat := (2 * num + den) / (2 * den)

/-- The pair of numbers whose quotient is `num / den · 2^(-e)`. -/
def scaleDown (num den : Nat) (e : Int) : Nat × Nat :=
  if 0 ≤ e then (num, den * pow2 e.toNat) else (num * pow2 (-e).toNat, den)

namespace Double

/-- The least exponent of the format. -/
def minExponent : Int := -1074

/-- The greatest exponent of the format. -/
def maxExponent : Int := 971

/-- The exponent at which the quotient of two positive numbers has 53 binary digits. -/
def normalExponent (num den : Nat) : Int :=
  let e : Int := (Nat.log2 num : Int) - Nat.log2 den - 52
  let (a, b) := scaleDown num den e
  if a < pow2 52 * b then e - 1 else e

/-- The binary64 number nearest to `±num / den`; beyond the greatest finite one it is infinite. -/
def ofRatio (negative : Bool) (num den : Nat) : Double :=
  if num = 0 then .finite negative 0 minExponent
  else
    let e := max (normalExponent num den) minExponent
    let (a, b) := scaleDown num den e
    let m := roundHalfEven a b
    let (m, e) := if m = pow2 53 then (pow2 52, e + 1) else (m, e)
    if maxExponent < e then .infinite negative else .finite negative m e

/-- The binary64 number nearest to `±digits · 10^scale`.  Magnitudes that are certain to overflow
or to vanish are decided before the power is formed. -/
def ofDecimal (negative : Bool) (digits : Nat) (scale : Int) : Double :=
  let magnitude : Int := (Nat.log2 digits : Int) * 3 / 10 + scale
  if digits = 0 ∨ magnitude < -400 then .finite negative 0 minExponent
  else if 400 < magnitude then .infinite negative
  else if 0 ≤ scale then ofRatio negative (digits * pow10 scale.toNat) 1
  else ofRatio negative digits (pow10 (-scale).toNat)

/-- The binary64 number nearest to an integer. -/
def ofInt (n : Int) : Double := ofRatio (n < 0) n.natAbs 1

/-- The magnitude of a finite number as a quotient. -/
def magnitude (significand : Nat) (exponent : Int) : Nat × Nat :=
  scaleDown significand 1 (-exponent)

/-- The ratio that a positive ratio becomes when it is rounded to a binary64 number; one beyond the
greatest finite number stays as it is. -/
def roundRatio (num den : Nat) : Nat × Nat :=
  match ofRatio false num den with
  | .finite _ significand exponent => magnitude significand exponent
  | _ => (num, den)

/-- The value of a finite number as a numerator and a positive denominator. -/
def toRatio? : Double → Option (Int × Nat)
  | .finite negative m e =>
    let (a, b) := magnitude m e
    some (if negative then -(a : Int) else a, b)
  | _ => none

/-- Whether the number is a zero of either sign. -/
def isZero : Double → Bool
  | .finite _ 0 _ => true
  | _ => false

/-- The integer that the number equals, if it is integral. -/
def toInt? (x : Double) : Option Int :=
  match x.toRatio? with
  | some (a, b) => if a % b = 0 then some (a / b) else none
  | none => none

example : ofDecimal false 1 0 = .finite false (pow2 52) (-52) := by decide +kernel
example : ofDecimal false 5 (-324) = .finite false 1 (-1074) := by decide +kernel
example : ofDecimal true 17 307 = .finite true 8517715530038134 971 := by decide +kernel
example : ofDecimal false 18 308 = .infinite false := by decide +kernel

end Double

end AccessGraph
