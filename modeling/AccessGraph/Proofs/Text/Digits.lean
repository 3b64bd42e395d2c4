import AccessGraph.Number.Numeral
import Mathlib.Algebra.Group.Nat.Defs

/-!
# Reading digits back

The decimal forms of natural numbers and integers read back as the numbers they were written from;
digits of a fixed width read back whenever the number fits into the width.
-/

namespace AccessGraph.Text

/-- The value of decimal digits is the library's. -/
private theorem digitsValue_eq_ofDigitChars (cs : List Char) :
    digitsValue cs = Nat.ofDigitChars 10 cs 0 := by
  have hstep : (fun (n : Nat) (c : Char) => n * 10 + (c.toNat - 48))
      = fun n c => 10 * n + (c.toNat - '0'.toNat) := by
    funext n c
    rw [Nat.mul_comm]
    rfl
  rw [digitsValue, hstep, Nat.ofDigitChars_eq_foldl]

/-- The digits of a number have its value. -/
theorem digitsValue_natDigits (n : Nat) : digitsValue (natDigits n) = n := by
  rw [digitsValue_eq_ofDigitChars, natDigits, Nat.ofDigitChars_ten_toDigits]

theorem isDigit_of_mem_natDigits {n : Nat} {c : Char} (h : c ∈ natDigits n) :
    c.isDigit = true :=
  Nat.isDigit_of_mem_toDigits (by decide) (by decide) h

theorem natDigits_ne_nil (n : Nat) : natDigits n ≠ [] := Nat.toDigits_ne_nil

/-- Every decimal digit is the digit of its value. -/
theorem isDigit_digitChar {n : Nat} (h : n < 10) : (Nat.digitChar n).isDigit = true := by
  have hall : ∀ m < 10, (Nat.digitChar m).isDigit = true := by decide
  exact hall n h

/-- Fixed digits are digits. -/
theorem isDigit_of_mem_fixedDigits {width n : Nat} {c : Char} (h : c ∈ fixedDigits 10 width n) :
    c.isDigit = true := by
  induction width generalizing n with
  | zero => simp [fixedDigits] at h
  | succ width ih =>
    rw [fixedDigits, List.mem_append, List.mem_singleton] at h
    rcases h with h | rfl
    · exact ih h
    · exact isDigit_digitChar (Nat.mod_lt n (by decide))

/-- One more digit makes ten times the value and itself. -/
theorem digitsValue_append_digit (cs : List Char) {n : Nat} (h : n < 10) :
    digitsValue (cs ++ [Nat.digitChar n]) = digitsValue cs * 10 + n := by
  have hdigit : (Nat.digitChar n).toNat - 48 = n := Nat.toNat_digitChar_sub_48_of_lt_ten h
  simp [digitsValue, hdigit]

/-- Digits of a fixed number have the value of what was written, if it fits. -/
theorem digitsValue_fixedDigits {width n : Nat} (h : n < 10 ^ width) :
    digitsValue (fixedDigits 10 width n) = n := by
  -- The last digit is the remainder; the digits in front of it are those of the quotient.
  induction width generalizing n with
  | zero =>
    obtain rfl : n = 0 := by simpa using h
    rfl
  | succ width ih =>
    have hdiv : n / 10 < 10 ^ width := by rw [Nat.pow_succ] at h; omega
    rw [fixedDigits, digitsValue_append_digit _ (Nat.mod_lt n (by decide)), ih hdiv]
    omega

/-- The integer that decimal digits with an optional sign denote. -/
def readInteger (cs : List Char) : Option Int :=
  let (negative, ds) := Numeral.sign cs
  if !ds.isEmpty && ds.all Char.isDigit then
    some (if negative then -(digitsValue ds : Int) else digitsValue ds)
  else none

/-- A digit in front is no sign. -/
private theorem sign_of_isDigit {c : Char} (h : c.isDigit = true) (cs : List Char) :
    Numeral.sign (c :: cs) = (false, c :: cs) := by
  unfold Numeral.sign
  split
  · next heq =>
    obtain ⟨rfl, -⟩ := List.cons.inj heq
    exact absurd h (by decide)
  · next heq =>
    obtain ⟨rfl, -⟩ := List.cons.inj heq
    exact absurd h (by decide)
  · rfl

/-- A natural number is read back from its digits. -/
theorem readInteger_natDigits (n : Nat) : readInteger (natDigits n) = some n := by
  obtain ⟨c, cs, h⟩ := List.exists_cons_of_ne_nil (natDigits_ne_nil n)
  have hall : (natDigits n).all Char.isDigit = true :=
    List.all_eq_true.mpr fun _ => isDigit_of_mem_natDigits
  have hvalue := digitsValue_natDigits n
  rw [h] at hall hvalue ⊢
  have hc : c.isDigit = true := by
    rw [List.all_cons, Bool.and_eq_true] at hall
    exact hall.1
  rw [readInteger, sign_of_isDigit hc]
  simp [hall, hvalue]

/-- An integer is read back from its digits, with its sign. -/
theorem readInteger_intDigits (n : Int) : readInteger (intDigits n) = some n := by
  cases n with
  | ofNat n => exact readInteger_natDigits n
  | negSucc n =>
    -- `-(n + 1)` is written as a dash and the digits of `n + 1`.
    have hall : (natDigits (n + 1)).all Char.isDigit = true :=
      List.all_eq_true.mpr fun _ => isDigit_of_mem_natDigits
    have hne := natDigits_ne_nil (n + 1)
    simp [intDigits, readInteger, Numeral.sign, hall, hne, digitsValue_natDigits,
      Int.negSucc_eq]

end AccessGraph.Text
