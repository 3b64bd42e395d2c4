import AccessGraph.Proofs.Json.Reader
import AccessGraph.Proofs.Lists
import AccessGraph.Proofs.Text.Digits

/-!
# Numbers as JSON text

An integer reads back as itself (`number?_intDigits`), and the display form of every finite binary64
number is a number in the sense of RFC 8259 (`isReal_render`): digits without needless zeros in
front, then a fraction or an exponent or both.
-/

namespace AccessGraph

open Text (digitsValue natDigits intDigits)

/-! ## Digits -/

/-- Characters that are all decimal digits. -/
def Digits (ds : List Char) : Prop := ∀ c ∈ ds, c.isDigit = true

theorem Digits.append {a b : List Char} (ha : Digits a) (hb : Digits b) : Digits (a ++ b) :=
  fun c h => (List.mem_append.mp h).elim (ha c) (hb c)

theorem Digits.sublist {a b : List Char} (hb : Digits b) (h : a.Sublist b) : Digits a :=
  fun c hc => hb c (h.subset hc)

/-- A number is written in digits. -/
theorem digits_natDigits (n : Nat) : Digits (natDigits n) :=
  fun _ => Text.isDigit_of_mem_natDigits

private theorem digits_zeros (n : Nat) : Digits (List.replicate n '0') := fun c h => by
  rw [List.eq_of_mem_replicate h]
  decide

/-- The decimal form of a positive number does not start with a zero. -/
private theorem head?_natDigits_ne_zero {n : Nat} (h : 0 < n) : (natDigits n).head? ≠ some '0' := by
  -- The first digit is that of the quotient by ten, as long as that is positive.
  induction n using Nat.strongRecOn with
  | _ n ih =>
    by_cases hsmall : n < 10
    · have hall : ∀ m < 10, 0 < m → [Nat.digitChar m].head? ≠ some '0' := by decide
      rw [natDigits, Nat.toDigits_of_lt_base hsmall]
      exact hall n hsmall h
    · have hquot := ih (n / 10) (by omega) (by omega)
      obtain ⟨c, cs, hcs⟩ := List.exists_cons_of_ne_nil (Text.natDigits_ne_nil (n / 10))
      rw [natDigits] at hquot hcs ⊢
      rw [Nat.toDigits_of_base_le (by decide) (by omega), hcs, List.cons_append, List.head?_cons]
      rwa [hcs, List.head?_cons] at hquot

namespace Json

/-- Digits that do not start with a zero may stand for a whole number. -/
private theorem isWhole_of_head {ds : List Char} (hne : ds ≠ []) (hhead : ds.head? ≠ some '0') :
    isWhole ds = true := by
  simp [isWhole, hne, hhead]

/-- A number is written without a zero in front. -/
private theorem isWhole_natDigits (n : Nat) : isWhole (natDigits n) = true := by
  rcases Nat.eq_zero_or_pos n with rfl | hpos
  · decide
  · exact isWhole_of_head (Text.natDigits_ne_nil n) (head?_natDigits_ne_zero hpos)

/-- A number starts with a digit behind its sign. -/
private theorem minus_signed (negative : Bool) {ds : List Char} (hds : Digits ds) (hne : ds ≠ [])
    (t : List Char) :
    minus ((if negative then ['-'] else []) ++ (ds ++ t)) = (negative, ds ++ t) := by
  cases negative with
  | true => rfl
  | false =>
    obtain ⟨c, cs, rfl⟩ := List.exists_cons_of_ne_nil hne
    have hc : c ≠ '-' := by
      rintro rfl
      exact absurd (hds '-' List.mem_cons_self) (by decide)
    simp [minus, hc]

/-- A whole number has digits. -/
private theorem ne_nil_of_isWhole {ds : List Char} (h : isWhole ds = true) : ds ≠ [] := by
  rintro rfl
  exact absurd h (by decide)

/-- Digits behind a sign that may be absent read as an integer. -/
private theorem number?_whole (negative : Bool) {ds : List Char} (hds : Digits ds)
    (hwhole : isWhole ds = true) :
    number? ((if negative then ['-'] else []) ++ ds)
      = some (.int (if negative then -(digitsValue ds : Int) else digitsValue ds)) := by
  have hminus := minus_signed negative hds (ne_nil_of_isWhole hwhole) []
  rw [List.append_nil] at hminus
  have hspan := span_append hds (t := []) (by simp)
  rw [List.append_nil] at hspan
  simp [number?, hminus, hspan.1, hspan.2, hwhole]

/-- An integer reads back as itself. -/
theorem number?_intDigits (n : Int) : number? (intDigits n) = some (.int n) := by
  cases n with
  | ofNat n =>
    have h := number?_whole false (digits_natDigits n) (isWhole_natDigits n)
    rw [Text.digitsValue_natDigits] at h
    exact h
  | negSucc n =>
    have h := number?_whole true (digits_natDigits (n + 1)) (isWhole_natDigits (n + 1))
    rw [Text.digitsValue_natDigits] at h
    exact h

/-! ## Numbers that are no integers -/

/-- A fraction as the grammar has it, or none. -/
inductive IsFraction : List Char → Prop
  | none : IsFraction []
  | digits {ds : List Char} : Digits ds → ds ≠ [] → IsFraction ('.' :: ds)

/-- An exponent as the grammar has it, or none. -/
inductive IsExponent : List Char → Prop
  | none : IsExponent []
  | digits {sign : Char} {ds : List Char} : sign = '+' ∨ sign = '-' → Digits ds → ds ≠ [] →
    IsExponent ('e' :: sign :: ds)

/-- A number as the grammar has it, with a fraction or an exponent. -/
inductive IsReal : List Char → Prop
  | intro (negative : Bool) {whole fraction exponent : List Char} :
    Digits whole → isWhole whole = true → IsFraction fraction → IsExponent exponent →
    fraction ++ exponent ≠ [] →
    IsReal ((if negative then ['-'] else []) ++ (whole ++ (fraction ++ exponent)))

/-- An exponent, if there is one, starts with its letter. -/
private theorem IsExponent.head_eq {cs : List Char} (h : IsExponent cs) :
    ∀ c, cs.head? = some c → c = 'e' := by
  cases h with
  | none => simp
  | digits => simp

/-- An exponent reads as one. -/
private theorem IsExponent.isSome_exponent? {cs : List Char} (h : IsExponent cs) :
    ∃ e, Numeral.exponent? cs = some e := by
  cases h with
  | none => exact ⟨0, rfl⟩
  | @digits sign ds hsign hds hne =>
    have hall : ds.all Char.isDigit = true := List.all_eq_true.mpr hds
    rcases hsign with rfl | rfl <;> simp [Numeral.exponent?, Numeral.sign, hne, hall]

/-- A fraction is split off an exponent. -/
private theorem IsFraction.fraction?_append {cs : List Char} (h : IsFraction cs)
    {exponent : List Char}
    (hexponent : IsExponent exponent) : ∃ ds, fraction? (cs ++ exponent) = some (ds, exponent) := by
  have hhead := hexponent.head_eq
  cases h with
  -- Without a fraction the exponent must not be taken for one.
  | none =>
    refine ⟨[], ?_⟩
    cases hexponent with
    | none => rfl
    | digits => simp [fraction?]
  -- The digits end before the exponent, which starts with a letter.
  | @digits ds hds hne =>
    have hspan := span_append (p := Char.isDigit) hds (t := exponent) (fun c hc => by
      rw [hhead c hc]
      decide)
    exact ⟨ds, by simp [fraction?, hspan.1, hspan.2, hne]⟩

/-- Behind the whole part stands a point or an exponent mark. -/
private theorem head_fraction_exponent {fraction exponent : List Char} (hf : IsFraction fraction)
    (he : IsExponent exponent) (c : Char) (h : (fraction ++ exponent).head? = some c) :
    c.isDigit = false := by
  cases hf with
  | none =>
    rw [he.head_eq c h]
    decide
  | digits =>
    obtain rfl : '.' = c := by simpa using h
    decide

/-- A number with a fraction or an exponent is read. -/
theorem IsReal.isSome_number? {cs : List Char} (h : IsReal cs) :
    ∃ x, number? cs = some (.double x) := by
  obtain ⟨negative, hwhole, hlead, hf, he, hne⟩ := h
  rename_i whole fraction exponent
  -- The reader takes off the sign, the whole part, the fraction and the exponent in turn.
  have hminus := minus_signed negative hwhole (ne_nil_of_isWhole hlead) (fraction ++ exponent)
  have hspan := span_append (p := Char.isDigit) hwhole (head_fraction_exponent hf he)
  have hrest : (fraction ++ exponent).isEmpty = false := by simpa using hne
  obtain ⟨ds, hsplit⟩ := hf.fraction?_append he
  obtain ⟨e, hpower⟩ := he.isSome_exponent?
  refine ⟨Numeral.toDouble ⟨negative, digitsValue (whole ++ ds), e - ds.length⟩, ?_⟩
  simp only [number?, hminus, hspan.1, hspan.2, hlead, hrest, hsplit, hpower, Bool.not_true,
    Bool.false_eq_true, ↓reduceIte, Option.bind_eq_bind, Option.bind_some]
  rfl

/-! ## The characters of a number -/

private theorem isNumberChar_of_isDigit {c : Char} (h : c.isDigit = true) :
    isNumberChar c = true := by
  simp [isNumberChar, h]

/-- A sign is a character of numbers. -/
private theorem isNumberChar_of_mem_sign {negative : Bool} {c : Char}
    (h : c ∈ if negative then ['-'] else []) : isNumberChar c = true := by
  cases negative with
  | true =>
    obtain rfl : c = '-' := by simpa using h
    decide
  | false => simp at h

/-- An integer is written in characters of numbers. -/
theorem isNumberChar_intDigits (n : Int) : ∀ c ∈ intDigits n, isNumberChar c = true := by
  intro c hc
  cases n with
  | ofNat n => exact isNumberChar_of_isDigit (digits_natDigits n c hc)
  | negSucc n =>
    rcases List.mem_cons.mp hc with rfl | hc
    · decide
    · exact isNumberChar_of_isDigit (digits_natDigits (n + 1) c hc)

/-- A real number is written in characters of numbers. -/
theorem IsReal.isNumberChar {cs : List Char} (h : IsReal cs) : ∀ c ∈ cs, isNumberChar c = true := by
  obtain ⟨negative, hwhole, -, hf, he, -⟩ := h
  intro c hc
  -- The sign, the whole part, the fraction and the exponent are looked at in turn.
  rcases List.mem_append.mp hc with hc | hc
  · exact isNumberChar_of_mem_sign hc
  rcases List.mem_append.mp hc with hc | hc
  · exact isNumberChar_of_isDigit (hwhole c hc)
  rcases List.mem_append.mp hc with hc | hc
  · cases hf with
    | none => simp at hc
    | digits hds _ =>
      rcases List.mem_cons.mp hc with rfl | hc
      · decide
      · exact isNumberChar_of_isDigit (hds c hc)
  · cases he with
    | none => simp at hc
    | digits hsign hds _ =>
      rcases List.mem_cons.mp hc with rfl | hc
      · decide
      rcases List.mem_cons.mp hc with rfl | hc
      · rcases hsign with rfl | rfl <;> decide
      · exact isNumberChar_of_isDigit (hds c hc)

end Json

/-! ## The digits of binary64 numbers -/

namespace Double

/-- A positive fraction stays positive in other units. -/
private theorem inUnits_pos {num den : Nat} (h : 0 < num) (unit : Int) :
    0 < (inUnits num den unit).1 := by
  unfold inUnits
  split
  · exact h
  · exact Nat.mul_pos h (pow10_pos _)

/-- The magnitude of a double that is not zero is positive. -/
private theorem magnitude_pos {m : Nat} (h : 0 < m) (e : Int) : 0 < (magnitude m e).1 := by
  unfold magnitude scaleDown
  split
  · exact h
  · exact Nat.mul_pos h (pow2_pos _)

/-- Zero rounds to no positive number. -/
private theorem roundsBack_zero {m low high a : Nat} (hlow : 0 < low) (ha : 0 < a) :
    roundsBack m low high (0, a) = false := by
  have hpos := Nat.mul_pos hlow ha
  unfold roundsBack
  split
  · have hlt : ¬ low * a ≤ 0 := by omega
    simp [hlt]
  · simp

/-- Digits that are found round back. -/
private theorem roundsBack_of_candidate? {m : Nat} {e : Int} {count n : Nat} {unit : Int}
    (h : candidate? m e count = some (n, unit)) :
    roundsBack m (neighbourhood m e).1 (neighbourhood m e).2.2
      ((neighbourhood m e).2.1 * n * (inUnits (magnitude m e).1 (magnitude m e).2 unit).2,
        (inUnits (magnitude m e).1 (magnitude m e).2 unit).1) = true := by
  simp only [candidate?] at h
  -- Either neighbour on the grid can come first; each is taken only if it rounds back.
  split at h
  · split at h
    · next hup =>
      obtain ⟨rfl, rfl⟩ := Prod.mk.inj (Option.some.inj h)
      exact hup
    · split at h
      · next hdown =>
        obtain ⟨rfl, rfl⟩ := Prod.mk.inj (Option.some.inj h)
        exact hdown
      · simp at h
  · split at h
    · next hdown =>
      obtain ⟨rfl, rfl⟩ := Prod.mk.inj (Option.some.inj h)
      exact hdown
    · split at h
      · next hup =>
        obtain ⟨rfl, rfl⟩ := Prod.mk.inj (Option.some.inj h)
        exact hup
      · simp at h

/-- A candidate for the digits of a double that is not zero is not zero. -/
private theorem candidate?_pos {m : Nat} {e : Int} {count n : Nat} {unit : Int} (hm : 0 < m)
    (h : candidate? m e count = some (n, unit)) : 0 < n := by
  have hback := roundsBack_of_candidate? h
  rcases Nat.eq_zero_or_pos n with rfl | hn
  · have hlow : 0 < (neighbourhood m e).1 := by
      simp only [neighbourhood]
      split <;> omega
    rw [Nat.mul_zero, Nat.zero_mul, roundsBack_zero hlow (inUnits_pos (magnitude_pos hm e) _)]
      at hback
    simp at hback
  · exact hn

/-- The digits that are written are those of a positive number, or a zero where none were found. -/
private theorem shortestDigits_pos {m : Nat} {e : Int} (hm : 0 < m) :
    0 < (shortestDigits m e).1 ∨ shortestDigits m e = (0, 0) := by
  -- The search stops at a candidate, which is not zero, or runs out of fuel and gives zero.
  have hsearch : ∀ fuel count,
      0 < (searchDigits m e fuel count).1 ∨ searchDigits m e fuel count = (0, 0) := by
    intro fuel
    induction fuel with
    | zero => exact fun _ => .inr rfl
    | succ fuel ih =>
      intro count
      rw [searchDigits]
      split
      · next d hd =>
        obtain ⟨n, unit⟩ := d
        exact .inl (candidate?_pos hm hd)
      · exact ih (count + 1)
  exact hsearch 17 1

end Double

namespace NumberStyle

/-- The digits of a positive number, without the zeros at the end: a first digit that is no zero,
and more digits. -/
private theorem digitsAndPoint_eq {n : Nat} (hn : 0 < n) (unit : Int) :
    ∃ c cs, (digitsAndPoint n unit).1 = c :: cs ∧ c ≠ '0' ∧ Digits (c :: cs) := by
  obtain ⟨c, cs, hcs⟩ := List.exists_cons_of_ne_nil (Text.natDigits_ne_nil n)
  have hne : c ≠ '0' := by
    have hhead := head?_natDigits_ne_zero hn
    rw [hcs, List.head?_cons] at hhead
    exact fun heq => hhead (congrArg some heq)
  have hdigits := digits_natDigits n
  rw [hcs] at hdigits
  -- Zeros are dropped from the end, and the first digit is where that stops at the latest.
  have hkeep : (cs.reverse ++ [c]).dropWhile (· = '0') = cs.reverse.dropWhile (· = '0') ++ [c] := by
    rw [List.dropWhile_append]
    split
    · next hempty =>
      have hnil := List.isEmpty_iff.mp hempty
      simp [hnil, hne]
    · rfl
  refine ⟨c, (cs.reverse.dropWhile (· = '0')).reverse, ?_, hne, ?_⟩
  · simp only [digitsAndPoint, hcs, List.reverse_cons, hkeep, List.reverse_append]
    rfl
  · have hsub : (cs.reverse.dropWhile (· = '0')).reverse.Sublist cs := by
      have hdrop := (List.dropWhile_sublist (fun c => decide (c = '0')) (l := cs.reverse)).reverse
      rwa [List.reverse_reverse] at hdrop
    exact hdigits.sublist (hsub.cons_cons c)

/-! A number is written by what it is: by name, or by digits. -/

theorem render_nan (style : NumberStyle) : style.render .nan = style.nan.toList := rfl

theorem render_infinite (style : NumberStyle) (negative : Bool) :
    style.render (.infinite negative)
      = (if negative then ['-'] else []) ++ style.infinity.toList := by
  cases negative <;> rfl

/-- A number other than zero is positional if its point is near, and else has an exponent. -/
theorem render_succ (style : NumberStyle) (negative : Bool) (m : Nat) (e : Int) :
    style.render (.finite negative (m + 1) e) =
      let x := Double.shortestDigits (m + 1) e
      let y := digitsAndPoint x.1 x.2
      if style.leastPlain ≤ y.2 - 1 ∧ y.2 - 1 ≤ style.greatestPlain then
        (if negative then ['-'] else []) ++ plain y.1 y.2
      else (if negative then ['-'] else []) ++ scientific style.exponentDigits y.1 (y.2 - 1) := rfl

end NumberStyle

namespace Json

open NumberStyle

/-- The positional form is a number with a fraction. -/
private theorem isReal_plain (negative : Bool) {c : Char} {cs : List Char} (hc : c ≠ '0')
    (hds : Digits (c :: cs)) (point : Int) :
    IsReal ((if negative then ['-'] else []) ++ plain (c :: cs) point) := by
  have hwhole : ∀ t, isWhole (c :: t) = true := fun t =>
    isWhole_of_head (by simp) (by simpa using hc)
  unfold plain
  by_cases hsmall : point ≤ 0
  · -- All digits stand behind the point, and a zero in front of it.
    have hfraction : IsFraction ('.' :: (List.replicate (-point).toNat '0' ++ c :: cs)) :=
      .digits ((digits_zeros _).append hds) (by simp)
    have hreal := IsReal.intro negative (digits_zeros 1) (by decide) hfraction .none (by simp)
    rw [if_pos hsmall]
    rwa [List.append_nil] at hreal
  rw [if_neg hsmall]
  obtain ⟨k, hk⟩ : ∃ k, point.toNat = k + 1 := ⟨point.toNat - 1, by omega⟩
  by_cases hinside : point.toNat < (c :: cs).length
  · -- The point stands among the digits.
    have hfront : Digits ((c :: cs).take point.toNat) := hds.sublist (List.take_sublist _ _)
    have hlead : isWhole ((c :: cs).take point.toNat) = true := by
      rw [hk, List.take_succ_cons]
      exact hwhole _
    have hback : (c :: cs).drop point.toNat ≠ [] := by
      rw [ne_eq, List.drop_eq_nil_iff]
      omega
    have hfraction : IsFraction ('.' :: (c :: cs).drop point.toNat) :=
      .digits (hds.sublist (List.drop_sublist _ _)) hback
    have hreal := IsReal.intro negative hfront hlead hfraction .none (by simp)
    rw [if_pos hinside]
    rwa [List.append_nil] at hreal
  · -- All digits stand in front of the point, and a zero behind it.
    have hfront := hds.append (digits_zeros (point.toNat - (c :: cs).length))
    have hfraction : IsFraction ['.', '0'] := .digits (digits_zeros 1) (by simp)
    have hreal := IsReal.intro negative hfront (hwhole _) hfraction .none (by simp)
    rw [if_neg hinside]
    rwa [List.append_nil] at hreal

/-- The form with an exponent is a number. -/
private theorem isReal_scientific (negative : Bool) {c : Char} {cs : List Char} (hc : c ≠ '0')
    (hds : Digits (c :: cs)) (width : Nat) (exponent : Int) :
    IsReal ((if negative then ['-'] else []) ++ scientific width (c :: cs) exponent) := by
  have hfirst : Digits [c] := hds.sublist (by simp)
  have hlead : isWhole [c] = true := isWhole_of_head (by simp) (by simpa using hc)
  have hpower : Digits (List.replicate (width - (natDigits exponent.natAbs).length) '0'
      ++ natDigits exponent.natAbs) := (digits_zeros _).append (digits_natDigits _)
  have hne : List.replicate (width - (natDigits exponent.natAbs).length) '0'
      ++ natDigits exponent.natAbs ≠ [] := by
    simp [Text.natDigits_ne_nil]
  have hsign : (if exponent < 0 then '-' else '+') = '+'
      ∨ (if exponent < 0 then '-' else '+') = '-' := by
    split
    · exact .inr rfl
    · exact .inl rfl
  -- A single digit is written without a point.
  have hfraction : IsFraction (if (c :: cs).length ≤ 1 then [] else '.' :: cs) := by
    split
    · exact .none
    · next hlong =>
      refine .digits (hds.sublist (by simp)) ?_
      rintro rfl
      simp at hlong
  have hreal := IsReal.intro negative hfirst hlead hfraction (.digits hsign hpower hne) (by simp)
  simpa [scientific] using hreal

/-- The display form of a finite binary64 number is a number with a fraction or an exponent. -/
theorem isReal_render (negative : Bool) (m : Nat) (e : Int) :
    IsReal (numberStyle.render (.finite negative m e)) := by
  have hzero : IsReal ((if negative then ['-'] else []) ++ ['0', '.', '0']) :=
    .intro negative (digits_zeros 1) (by decide) (.digits (digits_zeros 1) (by simp)) .none
      (by simp)
  cases m with
  | zero => exact hzero
  | succ m =>
    simp only [render_succ]
    rcases Double.shortestDigits_pos (e := e) (Nat.succ_pos m) with hpos | hnone
    · obtain ⟨c, cs, hds, hc, hdigits⟩ :=
        digitsAndPoint_eq hpos (Double.shortestDigits (m + 1) e).2
      split
      · rw [hds]
        exact isReal_plain negative hc hdigits _
      · rw [hds]
        exact isReal_scientific negative hc hdigits _ _
    · -- The digits of zero are none, with the point behind the first place.
      rw [hnone]
      exact hzero

end Json

end AccessGraph
