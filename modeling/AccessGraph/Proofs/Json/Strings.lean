import AccessGraph.Proofs.Json.Reader
import AccessGraph.Text.Quoted

/-!
# Strings as JSON text

A string reads back as the text it was written for (`text?_flatMap_escapeChar`): each character is
written as the codes that the reader finds, and an escaped surrogate pair is put together again.
-/

namespace AccessGraph.Json

open Text (fixedDigits hexValue? isPlainAscii)

/-! ## Codes -/

/-- A hexadecimal digit is worth what it was made of. -/
private theorem hexValue?_digitChar {n : Nat} (h : n < 16) :
    hexValue? (Nat.digitChar n) = some n := by
  have hall : ∀ m < 16, hexValue? (Nat.digitChar m) = some m := by decide
  exact hall n h

/-- The four digits of an escaped unit denote it. -/
private theorem codes?_escapeUnit {n : Nat} (h : n < 0x10000) (t : List Char) :
    codes? (escapeUnit n ++ t) = (codes? t).map fun (ns, rest) => (n :: ns, rest) := by
  have hunit : hexUnit? (Nat.digitChar (n / 16 / 16 / 16 % 16)) (Nat.digitChar (n / 16 / 16 % 16))
      (Nat.digitChar (n / 16 % 16)) (Nat.digitChar (n % 16)) = some n := by
    simp only [hexUnit?, hexValue?_digitChar (Nat.mod_lt _ (by decide : 0 < 16)),
      Option.bind_eq_bind, Option.bind_some]
    -- The digits are the remainders of repeated division by 16, put together again.
    show some _ = some n
    congr 1
    omega
  simp only [escapeUnit, fixedDigits, List.nil_append, List.cons_append, codes?, hunit,
    Option.bind_eq_bind, Option.bind_some]
  cases codes? t <;> rfl

/-- An escape by letter is read as its code. -/
private theorem codes?_letter {c : Char} {n : Nat} (h : letterCode? c = some n) (t : List Char) :
    codes? ('\\' :: c :: t) = (codes? t).map fun (ns, rest) => (n :: ns, rest) := by
  have hu : c ≠ 'u' := by
    rintro rfl
    have hnone : letterCode? 'u' = none := by decide
    simp [hnone] at h
  rw [codes?]
  · rw [h]
    cases codes? t <;> rfl
  · intro _ _ _ _ _ heq _
    exact hu heq

/-- A character that is neither a quote, a backslash nor a control is read as it is. -/
private theorem codes?_plain {c : Char} (hquote : c ≠ '\x22') (hslash : c ≠ '\\')
    (h : 0x20 ≤ c.toNat)
    (t : List Char) : codes? (c :: t) = (codes? t).map fun (ns, rest) => (c.toNat :: ns, rest) := by
  have hlt : ¬ c.toNat < 0x20 := by omega
  simp [codes?, hquote, hslash, hlt]

/-- The UTF-16 units of a character. -/
def charUnits (c : Char) : List Nat :=
  if c.toNat < 0x10000 then [c.toNat]
  else [0xD800 + (c.toNat - 0x10000) / 0x400, 0xDC00 + (c.toNat - 0x10000) % 0x400]

/-- A character is no half of a surrogate pair, and lies in the Unicode range. -/
private theorem toNat_isScalar (c : Char) :
    c.toNat < 0xD800 ∨ (0xDFFF < c.toNat ∧ c.toNat < 0x110000) :=
  c.valid

/-- The ways to write a character: by a letter, as itself, by its unit or by its two units. -/
inductive Written (c : Char) : List Char → Prop
  | letter {d : Char} : letterCode? d = some c.toNat → c.toNat < 0x10000 →
    isPlainAscii d = true → Written c ['\\', d]
  | plain : c ≠ '\x22' → c ≠ '\\' → isPlainAscii c = true → Written c [c]
  | unit : c.toNat < 0x10000 → Written c (escapeUnit c.toNat)
  | pair : ¬ c.toNat < 0x10000 → Written c
    (escapeUnit (0xD800 + (c.toNat - 0x10000) / 0x400)
      ++ escapeUnit (0xDC00 + (c.toNat - 0x10000) % 0x400))

/-- The encoder writes each character in one of the ways that are read. -/
theorem written_escapeChar (c : Char) : Written c (escapeChar c) := by
  simp only [escapeChar]
  -- The tests are made in the order of the encoder: letters first, codes for what is left.
  by_cases hquote : c = '\x22'
  · subst hquote
    exact .letter (by decide) (by decide) (by decide)
  by_cases hslash : c = '\\'
  · subst hslash
    exact .letter (by decide) (by decide) (by decide)
  by_cases hnewline : c = '\n'
  · subst hnewline
    exact .letter (by decide) (by decide) (by decide)
  by_cases hreturn : c = '\r'
  · subst hreturn
    exact .letter (by decide) (by decide) (by decide)
  by_cases htab : c = '\t'
  · subst htab
    exact .letter (by decide) (by decide) (by decide)
  simp only [hquote, hslash, hnewline, hreturn, htab, ↓reduceIte]
  by_cases hfeed : c.toNat = 0x0C
  · rw [if_pos hfeed]
    exact .letter (by rw [hfeed]; decide) (by omega) (by decide)
  by_cases hback : c.toNat = 0x08
  · rw [if_neg hfeed, if_pos hback]
    exact .letter (by rw [hback]; decide) (by omega) (by decide)
  rw [if_neg hfeed, if_neg hback]
  by_cases hplain : 0x20 ≤ c.toNat ∧ c.toNat < 0x7F
  · rw [if_pos hplain]
    exact .plain hquote hslash (by simpa [isPlainAscii] using hplain)
  rw [if_neg hplain]
  by_cases hunit : c.toNat < 0x10000
  · rw [if_pos hunit]
    exact .unit hunit
  · rw [if_neg hunit]
    exact .pair hunit

/-- A written character reads as its units. -/
private theorem codes?_written {c : Char} {w : List Char} (h : Written c w) (t : List Char) :
    codes? (w ++ t) = (codes? t).map fun (ns, rest) => (charUnits c ++ ns, rest) := by
  have hvalid := toNat_isScalar c
  -- Only a character beyond the basic plane has two units.
  have hone : c.toNat < 0x10000 → charUnits c = [c.toNat] := fun hlt => by
    rw [charUnits, if_pos hlt]
  cases h with
  | letter hletter hlt _ =>
    rw [hone hlt]
    exact codes?_letter hletter t
  | plain hquote hslash hplain =>
    simp only [isPlainAscii, Bool.and_eq_true, decide_eq_true_eq] at hplain
    rw [hone (by omega)]
    exact codes?_plain hquote hslash hplain.1 t
  | unit hlt =>
    rw [hone hlt]
    exact codes?_escapeUnit hlt t
  -- The two halves are read one after the other.
  | pair hge =>
    rw [List.append_assoc, codes?_escapeUnit (by omega), codes?_escapeUnit (by omega), charUnits,
      if_neg hge]
    cases codes? t <;> rfl

/-- The codes of a written string are the units of its characters, up to the closing quote. -/
private theorem codes?_flatMap_escapeChar (cs rest : List Char) :
    codes? (cs.flatMap escapeChar ++ '\x22' :: rest) = some (cs.flatMap charUnits, rest) := by
  induction cs with
  | nil => simp [codes?]
  | cons c cs ih =>
    rw [List.flatMap_cons, List.append_assoc, codes?_written (written_escapeChar c), ih]
    rfl

/-! ## Characters -/

/-- No character is half of a surrogate pair. -/
private theorem isHighHalf_toNat (c : Char) : isHighHalf c.toNat = false := by
  have hvalid := toNat_isScalar c
  simp only [isHighHalf, Bool.and_eq_false_iff, decide_eq_false_iff_not]
  omega

/-- A character is made again of its own code. -/
private theorem codeChar_toNat (c : Char) : codeChar c.toNat = c := by
  have hvalid := toNat_isScalar c
  have hlow : isLowHalf c.toNat = false := by
    simp only [isLowHalf, Bool.and_eq_false_iff, decide_eq_false_iff_not]
    omega
  rw [codeChar, isHighHalf_toNat, hlow]
  exact Char.ofNat_toNat c

/-- A character that is one unit is in no pair. -/
private theorem ofCodes_toNat (c : Char) (ns : List Nat) :
    ofCodes (c.toNat :: ns) = c :: ofCodes ns := by
  cases ns with
  | nil => simp [ofCodes, codeChar_toNat]
  | cons m ns => simp [ofCodes, isHighHalf_toNat, codeChar_toNat]

/-- The units of a character are put together to it. -/
private theorem ofCodes_charUnits (c : Char) (ns : List Nat) :
    ofCodes (charUnits c ++ ns) = c :: ofCodes ns := by
  have hvalid := toNat_isScalar c
  unfold charUnits
  by_cases hunit : c.toNat < 0x10000
  · rw [if_pos hunit]
    exact ofCodes_toNat c ns
  · rw [if_neg hunit]
    -- The halves carry ten bits each of what lies above the first plane.
    generalize hhigh : 0xD800 + (c.toNat - 0x10000) / 0x400 = high
    generalize hlow : 0xDC00 + (c.toNat - 0x10000) % 0x400 = low
    have hpair : (isHighHalf high && isLowHalf low) = true := by
      simp only [isHighHalf, isLowHalf, Bool.and_eq_true, decide_eq_true_eq]
      omega
    have hsum : 0x10000 + (high - 0xD800) * 0x400 + (low - 0xDC00) = c.toNat := by omega
    show ofCodes (high :: low :: ns) = c :: ofCodes ns
    rw [ofCodes, if_pos hpair, hsum, Char.ofNat_toNat]

/-- A text is made again of its code units, surrogate pairs included. -/
private theorem ofCodes_flatMap_charUnits (cs : List Char) :
    ofCodes (cs.flatMap charUnits) = cs := by
  induction cs with
  | nil => rfl
  | cons c cs ih => rw [List.flatMap_cons, ofCodes_charUnits, ih]

/-- A written string reads back up to its closing quote. -/
theorem text?_flatMap_escapeChar (cs rest : List Char) :
    text? (cs.flatMap escapeChar ++ '\x22' :: rest) = some (String.ofList cs, rest) := by
  simp [text?, codes?_flatMap_escapeChar, ofCodes_flatMap_charUnits]

end AccessGraph.Json
