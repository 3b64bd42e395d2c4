/-!
# Powers of two and ten

The two bases in which numbers are scaled: binary64 numbers by powers of two, decimals by powers of
ten.  The integers of 64 bits are bounded by a power of two.
-/

namespace AccessGraph

/-- The power of two with the given exponent. -/
def pow2 (n : Nat) : Nat := Nat.pow 2 n

/-- The power of ten with the given exponent. -/
def pow10 (n : Nat) : Nat := Nat.pow 10 n

/-- The power of five with the given exponent; `1 / 2^n` is `5^n / 10^n`. -/
def pow5 (n : Nat) : Nat := Nat.pow 5 n

/-- Whether an integer fits in 64 bits, one of them for the sign. -/
def isWord (n : Int) : Bool := -(pow2 63 : Int) ≤ n && n < pow2 63

theorem pow2_succ (n : Nat) : pow2 (n + 1) = pow2 n * 2 := rfl

theorem pow10_succ (n : Nat) : pow10 (n + 1) = pow10 n * 10 := rfl

/-- No power of two vanishes. -/
theorem pow2_pos (n : Nat) : 0 < pow2 n := by
  induction n with
  | zero => decide
  | succ n ih => rw [pow2_succ]; omega

/-- No power of ten vanishes. -/
theorem pow10_pos (n : Nat) : 0 < pow10 n := by
  induction n with
  | zero => decide
  | succ n ih => rw [pow10_succ]; omega

end AccessGraph
