/-!
# Digits

Positional digits of natural numbers and integers, as character lists.  `fixedDigits` pads to a
width (dates, hexadecimal escapes); `natDigits` and `intDigits` write the usual decimal form.
-/

namespace AccessGraph.Text

/-- The last `width` digits of `n` in the given base, padded on the left with zeros.  Bases go up
to sixteen; the digits above nine are lower-case letters. -/
def fixedDigits (base : Nat) : (width : Nat) → (n : Nat) → List Char
  | 0, _ => []
  | width + 1, n => fixedDigits base width (n / base) ++ [Nat.digitChar (n % base)]

/-- The decimal form of a natural number. -/
def natDigits (n : Nat) : List Char := Nat.toDigits 10 n

/-- The decimal form of an integer, with a minus sign in front of a negative one. -/
def intDigits : Int → List Char
  | .ofNat n => natDigits n
  | .negSucc n => '-' :: natDigits (n + 1)

/-- The decimal form of a natural number as a text. -/
def natText (n : Nat) : String := String.ofList (natDigits n)

/-- The decimal form of an integer as a text. -/
def intText (n : Int) : String := String.ofList (intDigits n)

/-- The number that a list of decimal digits denotes. -/
def digitsValue (cs : List Char) : Nat := cs.foldl (fun n c => n * 10 + (c.toNat - 48)) 0

/-- The value of one hexadecimal digit, in either case. -/
def hexValue? (c : Char) : Option Nat :=
  if '0' ≤ c ∧ c ≤ '9' then some (c.toNat - 48)
  else if 'a' ≤ c ∧ c ≤ 'f' then some (c.toNat - 87)
  else if 'A' ≤ c ∧ c ≤ 'F' then some (c.toNat - 55)
  else none

/-- The lower-case form of a character of the ASCII alphabet; other characters stay. -/
def asciiLower (s : String) : String := String.ofList (s.toList.map Char.toLower)

/-- As many digits are written as were asked for, whatever the number. -/
@[simp] theorem length_fixedDigits (base width n : Nat) :
    (fixedDigits base width n).length = width := by
  induction width generalizing n with
  | zero => rfl
  | succ width ih => simp [fixedDigits, ih]

end AccessGraph.Text
