import AccessGraph.Number.Power
import AccessGraph.Text.Digits

/-!
# Universally unique identifiers

A 128-bit number, displayed as 32 hexadecimal digits in groups of eight, four, four, four and
twelve.  Reading ignores the hyphens and accepts braces around the digits and a resource-name
scheme in front of them.
-/

namespace AccessGraph

/-- A universally unique identifier. -/
structure Uuid where
  value : Nat
  isLt : value < pow2 128
  deriving DecidableEq, Repr

namespace Uuid

/-- The number that hexadecimal digits denote. -/
def hexNumber? (cs : List Char) : Option Nat :=
  cs.foldlM (fun n c => (Text.hexValue? c).map (n * 16 + ·)) 0

/-- Removes a scheme such as `urn:uuid:` from the front. -/
def dropScheme (cs : List Char) : List Char :=
  let rest := (cs.reverse.takeWhile (· ≠ ':')).reverse
  if rest.length < cs.length then rest else cs

/-- Reads an identifier. -/
def ofText? (s : String) : Option Uuid :=
  let digits := (dropScheme s.toList).filter fun c => c ≠ '\x7b' && c ≠ '\x7d' && c ≠ '-'
  if digits.length = 32 then
    (hexNumber? digits).bind fun n => if h : n < pow2 128 then some ⟨n, h⟩ else none
  else none

/-- The display form. -/
def text (u : Uuid) : String :=
  let ds := Text.fixedDigits 16 32 u.value
  let group := fun start length => (ds.drop start).take length
  String.ofList (group 0 8 ++ '-' :: group 8 4 ++ '-' :: group 12 4 ++ '-' :: group 16 4
    ++ '-' :: group 20 12)

end Uuid

end AccessGraph
