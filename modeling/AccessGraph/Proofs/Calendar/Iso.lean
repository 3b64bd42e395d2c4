import AccessGraph.Calendar.Iso
import AccessGraph.Proofs.Calendar.Date
import AccessGraph.Proofs.Text.Digits

/-!
# Reading the ISO form back

Each part of the ISO form reads back in front of anything that may follow it; `Moment.ofIso?_iso`
puts the parts together.  The form shows the offset of a moment and not its zone, so what is read
has that offset at all times.
-/

namespace AccessGraph

open Text (fixedDigits digitsValue)

/-- Digits of a fixed number are read back in front of anything. -/
private theorem takeDigits?_append {width n : Nat} (h : n < 10 ^ width) (rest : List Char) :
    takeDigits? width (fixedDigits 10 width n ++ rest) = some (n, rest) := by
  have hlength : (fixedDigits 10 width n).length = width := Text.length_fixedDigits 10 width n
  have htake : (fixedDigits 10 width n ++ rest).take width = fixedDigits 10 width n := by
    rw [List.take_append_of_le_length (by omega), List.take_of_length_le (by omega)]
  have hdrop : (fixedDigits 10 width n ++ rest).drop width = rest := by
    rw [List.drop_append_of_le_length (by omega), List.drop_of_length_le (by omega),
      List.nil_append]
  have hdigits : (fixedDigits 10 width n).all Char.isDigit = true :=
    List.all_eq_true.mpr fun _ => Text.isDigit_of_mem_fixedDigits
  simp [takeDigits?, htake, hdrop, hlength, hdigits, Text.digitsValue_fixedDigits h]

/-- Two digits are read back in front of anything, another digit included. -/
@[simp] theorem takeDigits?_twoDigits {n : Nat} (h : n < 100) (rest : List Char) :
    takeDigits? 2 (twoDigits n ++ rest) = some (n, rest) :=
  takeDigits?_append (by omega) rest

@[simp] theorem takeChar?_cons (c : Char) (cs : List Char) : takeChar? c (c :: cs) = some cs := by
  simp [takeChar?]

namespace Date

/-- A month has at most 31 days, and only twelve months have any. -/
theorem monthLength_le (year month : Nat) :
    monthLength year month ≤ 31 ∧ (12 < month → monthLength year month = 0) := by
  -- The cases are the long months, the short ones and February.
  unfold monthLength
  split
  · next h =>
    simp only [List.mem_cons, List.not_mem_nil, or_false] at h
    omega
  · split
    · next h =>
      simp only [List.mem_cons, List.not_mem_nil, or_false] at h
      omega
    · split
      · split <;> omega
      · omega

/-- The parts of a date fit into their digits. -/
theorem parts_lt (d : Date) : d.year < 10000 ∧ d.month < 100 ∧ d.day < 100 := by
  have hday := d.isDay
  simp only [isCalendarDay, Bool.and_eq_true, decide_eq_true_eq] at hday
  have hmonth := monthLength_le d.year d.month
  omega

/-- A date is read back in front of anything. -/
theorem takeDate?_isoChars (d : Date) (rest : List Char) :
    takeDate? (d.isoChars ++ rest) = some ((d.year, d.month, d.day), rest) := by
  obtain ⟨hyear, hmonth, hday⟩ := d.parts_lt
  simp only [isoChars, List.append_assoc, List.cons_append, takeDate?,
    takeDigits?_append (show d.year < 10 ^ 4 from hyear), takeDigits?_twoDigits hmonth,
    takeDigits?_twoDigits hday, takeChar?_cons, Option.bind_eq_bind, Option.bind_some]
  rfl

/-- The parts of a date make that date again. -/
@[simp] theorem ofParts?_parts (d : Date) : ofParts? d.year d.month d.day = some d := by
  rw [ofParts?, dif_pos d.isDay]

end Date

namespace Clock

/-- The parts of a time of day make that time again. -/
@[simp] theorem ofParts?_parts (c : Clock) :
    ofParts? c.hour c.minute c.second c.micro = some c := by
  have hlt := c.isLt
  have hparts : c.hour < 24 ∧ c.minute < 60 ∧ c.second < 60 ∧ c.micro < 1000000 := by
    simp only [hour, minute, second, micro]
    omega
  have hsum : ((c.hour * 60 + c.minute) * 60 + c.second) * 1000000 + c.micro = c.micros := by
    simp only [hour, minute, second, micro]
    omega
  rw [ofParts?, dif_pos hparts]
  congr

/-- Six digits of a fraction are its microseconds. -/
private theorem fractionMicros_fixedDigits {n : Nat} (h : n < 1000000) :
    fractionMicros (fixedDigits 10 6 n) = n := by
  have hlength : (fixedDigits 10 6 n).length = 6 := Text.length_fixedDigits 10 6 n
  rw [fractionMicros, List.take_append_of_le_length (by omega),
    List.take_of_length_le (by omega), Text.digitsValue_fixedDigits (by omega)]

/-- A time of day reads back in front of anything that does not go on with it. -/
theorem takeClock?_isoChars (c : Clock) {marks : List Char} (hmarks : '.' ∈ marks)
    {rest : List Char} (hrest : ∀ d, rest.head? = some d → d ∉ marks ∧ d.isDigit = false) :
    takeClock? marks (c.isoChars ++ rest) = some (c, rest) := by
  have hclock := c.ofParts?_parts
  have hhour : c.hour < 100 := by have := c.isLt; simp only [hour]; omega
  have hminute : c.minute < 100 := by simp only [minute]; omega
  have hsecond : c.second < 100 := by simp only [second]; omega
  have hmicro : c.micro < 1000000 := by simp only [micro]; omega
  simp only [isoChars, List.append_assoc, List.cons_append, takeClock?,
    takeDigits?_twoDigits hhour, takeDigits?_twoDigits hminute, takeDigits?_twoDigits hsecond,
    takeChar?_cons, Option.bind_eq_bind, Option.bind_some]
  -- A fraction is written only if there is one; without it, what follows must not look like it.
  by_cases hzero : c.micro = 0
  · rw [hzero] at hclock
    rw [if_pos hzero, List.nil_append]
    cases rest with
    | nil => simp [hclock]
    | cons d ds =>
      have hd := (hrest d rfl).1
      simp [hd, hclock]
  · have hdigits : ∀ d ∈ fixedDigits 10 6 c.micro, d.isDigit = true := fun _ =>
      Text.isDigit_of_mem_fixedDigits
    -- The digits of the fraction end where the rest starts.
    have hstop : rest.takeWhile Char.isDigit = [] ∧ rest.dropWhile Char.isDigit = rest := by
      cases rest with
      | nil => exact ⟨rfl, rfl⟩
      | cons d ds => simp [(hrest d rfl).2]
    have htake : (fixedDigits 10 6 c.micro ++ rest).takeWhile Char.isDigit
        = fixedDigits 10 6 c.micro := by
      rw [List.takeWhile_append_of_pos hdigits, hstop.1, List.append_nil]
    have hdrop : (fixedDigits 10 6 c.micro ++ rest).dropWhile Char.isDigit = rest := by
      rw [List.dropWhile_append_of_pos hdigits, hstop.2]
    have hne : (fixedDigits 10 6 c.micro).isEmpty = false := by
      rw [List.isEmpty_eq_false_iff_exists_mem]
      exact ⟨_, List.mem_append_right _ (List.mem_singleton.mpr rfl)⟩
    rw [if_neg hzero]
    simp [hmarks, htake, hdrop, hne, fractionMicros_fixedDigits hmicro, hclock]

end Clock

/-- The digits behind a sign denote so many seconds. -/
private theorem isoOffset?_digits {sign : Char} (hsign : sign = '+' ∨ sign = '-') {n : Nat}
    (hn : n < 86400) :
    isoOffset? (sign :: twoDigits (n / 3600) ++ ':' :: twoDigits (n / 60 % 60)
        ++ (if n % 60 = 0 then [] else ':' :: twoDigits (n % 60)))
      = (Offset.ofSeconds? (if sign = '-' then -(n : Int) else n)).map some := by
  have hhour : n / 3600 < 100 := by omega
  have hminute : n / 60 % 60 < 60 := by omega
  have hsecond : n % 60 < 60 := by omega
  have hmark : (sign = '+' || sign = '-') = true := by simpa using hsign
  simp only [List.append_assoc, List.cons_append]
  unfold isoOffset?
  split
  · next heq => simp at heq
  · next heq =>
    obtain ⟨rfl, -⟩ := List.cons.inj heq
    exact absurd hsign (by decide)
  · next c cs _ heq =>
    obtain ⟨rfl, rfl⟩ := List.cons.inj heq
    simp only [hmark, ↓reduceIte, takeDigits?_twoDigits hhour, takeChar?_cons,
      takeDigits?_twoDigits (Nat.lt_trans hminute (by decide)), Option.bind_eq_bind,
      Option.bind_some]
    -- The three numbers add up to the number of seconds.
    have hsum : (((n / 3600 : Nat) : Int) * 60 + (n / 60 % 60 : Nat)) * 60 + (n % 60 : Nat)
        = n := by
      omega
    -- Seconds are written only if there are any.
    by_cases hzero : n % 60 = 0
    · rw [hzero] at hsum
      simp only [hzero, ↓reduceIte, hminute, hsum, Option.map_eq_bind, decide_true,
        Nat.zero_lt_succ, Bool.and_self]
      rfl
    · have hlast := takeDigits?_twoDigits (Nat.lt_trans hsecond (by decide)) []
      rw [List.append_nil] at hlast
      simp only [hzero, ↓reduceIte, hminute, hsecond, hlast, hsum, Option.map_eq_bind,
        decide_true, Bool.and_self, Option.bind_some, List.isEmpty_nil]
      rfl

/-- An offset is read back where nothing follows it. -/
theorem isoOffset?_isoChars (o : Offset) : isoOffset? o.isoChars = some (some o) := by
  have hday := o.inDay
  have hlt : o.seconds.natAbs < 86400 := by omega
  unfold Offset.isoChars
  -- The sign stands in front of the absolute value.
  by_cases hneg : o.seconds < 0
  · have habs : -(o.seconds.natAbs : Int) = o.seconds := by omega
    simp only [if_pos hneg]
    rw [isoOffset?_digits (.inr rfl) hlt, if_pos rfl, habs, Offset.ofSeconds?, dif_pos hday]
    rfl
  · have habs : (o.seconds.natAbs : Int) = o.seconds := by omega
    simp only [if_neg hneg]
    rw [isoOffset?_digits (.inl rfl) hlt, if_neg (by decide), habs, Offset.ofSeconds?, dif_pos hday]
    rfl

/-- The moment with its offset as all that is known of its zone. -/
def Moment.given (m : Moment) : Moment := { m with zone := m.offset.map .given, fold := false }

/-- Giving the offset itself in place of a zone keeps the offset. -/
@[simp] theorem Moment.offset_given (m : Moment) : m.given.offset = m.offset := by
  simp only [given, offset, Option.map_map]
  rfl

/-- Giving the offset itself in place of a zone keeps the instant. -/
@[simp] theorem Moment.instant_given (m : Moment) : m.given.instant = m.instant := by
  rw [instant, offset_given]
  rfl

/-- What comes behind a time of day does not go on with it. -/
private theorem offset_follows_clock (m : Moment) (d : Char)
    (h : (m.offset.elim [] Offset.isoChars).head? = some d) :
    d ∉ ['.', ','] ∧ d.isDigit = false := by
  cases hoffset : m.offset with
  | none => simp [hoffset] at h
  | some o =>
    have hhead : d = if o.seconds < 0 then '-' else '+' := by
      simpa [hoffset, Offset.isoChars, eq_comm] using h
    split at hhead <;> subst hhead <;> decide

/-- The ISO form of a moment reads back as the moment with its offset, whatever stands between date
and time. -/
theorem Moment.ofIso?_isoChars (m : Moment) (separator : Char) :
    Moment.ofIso? (String.ofList (m.isoChars separator)) = some m.given := by
  -- The fraction ends where the offset starts, since no offset starts with a digit.
  have hclock := m.clock.takeClock?_isoChars (show '.' ∈ ['.', ','] by decide)
    (offset_follows_clock m)
  have hoffset : isoOffset? (m.offset.elim [] Offset.isoChars) = some m.offset := by
    cases m.offset with
    | none => rfl
    | some o => exact isoOffset?_isoChars o
  rw [ofIso?, String.toList_ofList, isoChars]
  simp only [List.append_assoc, List.cons_append, Date.takeDate?_isoChars, Date.ofParts?_parts,
    hclock, hoffset, Option.bind_eq_bind, Option.bind_some]
  rfl

/-- The ISO form of a moment reads back as the moment at its offset. -/
theorem Moment.ofIso?_iso (m : Moment) : Moment.ofIso? m.iso = some m.given :=
  m.ofIso?_isoChars 'T'

end AccessGraph
