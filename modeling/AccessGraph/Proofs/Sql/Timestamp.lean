import AccessGraph.Proofs.Calendar.Order
import AccessGraph.Proofs.Sql.Scanner
import Mathlib.Data.List.Forall2

/-!
# Time stamps

A time stamp is the ISO form of a moment in UTC, between quotes.  It has a fixed shape, with a
fraction just when the moment has microseconds; it reads back as the instant it was written for;
and time stamps compare as texts as their instants do (`timestamp_denotes_instant`).
-/

namespace AccessGraph.Sql

open Text (fixedDigits)

/-! ## The shape of a time stamp -/

/-- A text of the given shape: a `d` of the shape stands for a digit, any other character for
itself. -/
def HasShape (shape cs : List Char) : Prop :=
  List.Forall₂ (fun p c => if p = 'd' then c.isDigit = true else c = p) shape cs

/-- The shape of a time stamp with or without a fraction of a second. -/
def stampShape : (fraction : Bool) → String
  | true => "dddd-dd-ddTdd:dd:dd.dddddd+00:00"
  | false => "dddd-dd-ddTdd:dd:dd+00:00"

namespace HasShape

theorem append {p q a b : List Char} (ha : HasShape p a) (hb : HasShape q b) :
    HasShape (p ++ q) (a ++ b) := List.rel_append ha hb

theorem cons {c : Char} (hc : c ≠ 'd') {p a : List Char} (h : HasShape p a) :
    HasShape (c :: p) (c :: a) := by
  refine List.Forall₂.cons ?_ h
  rw [if_neg hc]

/-- A text without the letter that stands for digits is of its own shape. -/
theorem refl {cs : List Char} (h : 'd' ∉ cs) : HasShape cs cs := by
  refine List.forall₂_same.mpr fun c hc => ?_
  have hne : c ≠ 'd' := ne_of_mem_of_not_mem hc h
  rw [if_neg hne]

/-- Digits have the shape of as many digits. -/
theorem fixedDigits (width n : Nat) :
    HasShape (List.replicate width 'd') (Text.fixedDigits 10 width n) := by
  induction width generalizing n with
  | zero => exact List.Forall₂.nil
  | succ width ih =>
    rw [List.replicate_succ', Text.fixedDigits]
    refine append (ih (n / 10)) (List.Forall₂.cons ?_ List.Forall₂.nil)
    exact Text.isDigit_digitChar (Nat.mod_lt n (by decide))

/-- Two digits have the shape of two. -/
private theorem twoDigits (n : Nat) :
    HasShape ['d', 'd'] (AccessGraph.twoDigits n) := fixedDigits 2 n

/-- A shape without quotes keeps them out of the text. -/
private theorem no_quote {shape cs : List Char} (h : HasShape shape cs) (hshape : '\x27' ∉ shape) :
    '\x27' ∉ cs := by
  intro hmem
  induction h with
  | nil => simp at hmem
  | @cons p c shape cs hc _ ih =>
    rcases List.mem_cons.mp hmem with rfl | hmem
    · -- A quote is no digit, so the shape would have to have it.
      split at hc
      · exact absurd hc (by decide)
      · exact hshape (hc ▸ List.mem_cons_self)
    · exact ih (fun h => hshape (List.mem_cons_of_mem _ h)) hmem

end HasShape

/-- The ISO form of a date has its shape, whatever the year. -/
private theorem hasShape_date (d : Date) : HasShape "dddd-dd-dd".toList d.isoChars := by
  have hyear := HasShape.fixedDigits 4 d.year
  have hday := (HasShape.twoDigits d.day).cons (show '-' ≠ 'd' by decide)
  have hmonth := (HasShape.twoDigits d.month).cons (show '-' ≠ 'd' by decide)
  exact (hyear.append hmonth).append hday

/-- The shape of a time of day, without its fraction. -/
private theorem hasShape_time (c : Clock) : HasShape "dd:dd:dd".toList
    (twoDigits c.hour ++ ':' :: twoDigits c.minute ++ ':' :: twoDigits c.second) := by
  have hminute := (HasShape.twoDigits c.minute).cons (show ':' ≠ 'd' by decide)
  have hsecond := (HasShape.twoDigits c.second).cons (show ':' ≠ 'd' by decide)
  exact ((HasShape.twoDigits c.hour).append hminute).append hsecond

/-- The ISO form of a moment in UTC has the shape of a time stamp. -/
private theorem hasShape_stamp {u : Moment} (h : u.offset = some .utc) :
    HasShape (stampShape (u.clock.micro ≠ 0)).toList (u.isoChars 'T') := by
  have hzone : HasShape "+00:00".toList "+00:00".toList := HasShape.refl (by simp)
  have htime := (hasShape_time u.clock).cons (show 'T' ≠ 'd' by decide)
  have hfront := (hasShape_date u.date).append htime
  rw [Moment.isoChars_of_utc h, Clock.isoChars]
  -- the fraction is written when the clock has one
  by_cases hzero : u.clock.micro = 0
  · have hall := hfront.append hzone
    simpa [hzero, stampShape] using hall
  · have hfraction := (HasShape.fixedDigits 6 u.clock.micro).cons (show '.' ≠ 'd' by decide)
    have hall := (hfront.append hfraction).append hzone
    simpa [hzero, stampShape] using hall

/-- No time stamp has a quote in it. -/
private theorem quote_not_mem_stampShape (fraction : Bool) :
    '\x27' ∉ (stampShape fraction).toList := by
  cases fraction <;> simp [stampShape]

/-! ## The literal -/

/-- Text without quotes needs no escaping. -/
private theorem escapeChars_eq_self {cs : List Char} (h : '\x27' ∉ cs) : escapeChars cs = cs := by
  induction cs with
  | nil => rfl
  | cons c cs ih =>
    rw [List.mem_cons, not_or] at h
    rw [escapeChars, if_neg (fun heq => h.1 heq.symm), ih h.2]

/-- The literal of a moment is its ISO form in UTC, in quotes. -/
theorem timestamp_eq_ok {m u : Moment} (h : m.utc? = some u) :
    timestamp (some m) = .ok (String.ofList ('\x27' :: (u.isoChars 'T' ++ ['\x27']))) := by
  have hquote : '\x27' ∉ u.isoChars 'T' :=
    (hasShape_stamp (Moment.instant_of_utc? h).2).no_quote (quote_not_mem_stampShape _)
  have hchars : (literal u.iso).toList = '\x27' :: (u.isoChars 'T' ++ ['\x27']) := by
    rw [toList_literal, literalChars, Moment.iso, String.toList_ofList, escapeChars_eq_self hquote]
  rw [timestamp, h, ← hchars, String.ofList_toList]

/-- A moment has a time stamp if it has a form in UTC. -/
theorem timestamp_eq_error_iff {m : Moment} :
    timestamp (some m) = .error .outOfRange ↔ m.utc? = none := by
  cases hutc : m.utc? with
  | none => simp [timestamp, hutc]
  | some u => simp [timestamp, hutc]

/-- A moment that has a literal is in the range of UTC. -/
private theorem utc?_of_timestamp {m : Moment} {s : String} (h : timestamp (some m) = .ok s) :
    ∃ u, m.utc? = some u ∧ s.toList = '\x27' :: (u.isoChars 'T' ++ ['\x27']) := by
  cases hutc : m.utc? with
  | none => simp [timestamp, hutc] at h
  | some u =>
    rw [timestamp_eq_ok hutc] at h
    obtain rfl := Except.ok.inj h
    exact ⟨u, rfl, String.toList_ofList⟩

/-- Time stamps are ordered as texts as the instants are. -/
theorem timestamp_lt_iff {a b : Moment} {s t : String} (ha : timestamp (some a) = .ok s)
    (hb : timestamp (some b) = .ok t) : s < t ↔ a.instant < b.instant := by
  obtain ⟨u, hu, hs⟩ := utc?_of_timestamp ha
  obtain ⟨v, hv, ht⟩ := utc?_of_timestamp hb
  obtain ⟨huinstant, huutc⟩ := Moment.instant_of_utc? hu
  obtain ⟨hvinstant, hvutc⟩ := Moment.instant_of_utc? hv
  rw [String.lt_iff, hs, ht, cons_lt_cons_same, Moment.isoChars_lt_iff huutc hvutc, huinstant,
    hvinstant]

/-- Time stamps are equal just when the instants are: neither comes before the other. -/
theorem timestamp_inj {a b : Moment} {s t : String} (ha : timestamp (some a) = .ok s)
    (hb : timestamp (some b) = .ok t) : s = t ↔ a.instant = b.instant := by
  -- both ways of the order of texts, and neither holds of equal ones
  have hlt := timestamp_lt_iff ha hb
  have hgt := timestamp_lt_iff hb ha
  constructor
  · rintro rfl
    have hirrefl : ¬ s < s := String.lt_irrefl s
    have hnlt : ¬ a.instant < b.instant := fun h => hirrefl (hlt.mpr h)
    have hngt : ¬ b.instant < a.instant := fun h => hirrefl (hgt.mpr h)
    omega
  · intro heq
    have hnlt : ¬ s < t := fun h => absurd (hlt.mp h) (by omega)
    have hngt : ¬ t < s := fun h => absurd (hgt.mp h) (by omega)
    exact String.le_antisymm hngt hnlt

/-- A moment has a time stamp unless it has an offset and its instant lies outside the years 1 to
9999.  The time stamp is a quoted text `YYYY-MM-DDTHH:MM:SS[.ffffff]+00:00`, with a fraction just
when there are microseconds, that reads as the instant of the moment; and time stamps are equal, or
in order as texts, just when their instants are. -/
theorem timestamp_denotes_instant :
    (∀ m : Moment,
      (timestamp (some m) = .error .outOfRange
        ↔ m.isAware = true ∧ ¬ Moment.InYears m.instant) ∧
      (¬ (m.isAware = true ∧ ¬ Moment.InYears m.instant) → ∃ cs u,
        timestamp (some m) = .ok (String.ofList ('\x27' :: (cs ++ ['\x27']))) ∧
        HasShape (stampShape (m.clock.micro ≠ 0)).toList cs ∧
        Moment.ofIso? (String.ofList cs) = some u ∧
        u.offset.map Offset.seconds = some 0 ∧ u.instant = m.instant)) ∧
    ∀ (a b : Moment) (s t : String),
      timestamp (some a) = .ok s → timestamp (some b) = .ok t →
      (s = t ↔ a.instant = b.instant) ∧ (s < t ↔ a.instant < b.instant) := by
  refine ⟨fun m => ⟨timestamp_eq_error_iff.trans Moment.utc?_eq_none_iff, fun hin => ?_⟩,
    fun a b s t ha hb => ⟨timestamp_inj ha hb, timestamp_lt_iff ha hb⟩⟩
  -- in range, the text is that of the moment moved to UTC
  obtain ⟨u, hu⟩ : ∃ u, m.utc? = some u :=
    Option.ne_none_iff_exists'.mp fun hnone => hin (Moment.utc?_eq_none_iff.mp hnone)
  obtain ⟨hinstant, hutc⟩ := Moment.instant_of_utc? hu
  have hshape := hasShape_stamp hutc
  rw [Moment.micro_of_utc? hu] at hshape
  refine ⟨u.isoChars 'T', u.given, timestamp_eq_ok hu, hshape, u.ofIso?_isoChars 'T', ?_, ?_⟩
  · rw [Moment.offset_given, hutc]
    rfl
  · rw [Moment.instant_given, hinstant]

/-- Half past midnight on the first of March 2026, 5:30:15 east of UTC. -/
def easternMoment : Moment := ⟨⟨2026, 3, 1, by decide⟩, ⟨1800000000, by decide⟩,
  some (.given ⟨19815, by decide⟩), false⟩

/-- Half a second later, without an offset. -/
def laterMoment : Moment := ⟨⟨2026, 2, 28, by decide⟩, ⟨68385500000, by decide⟩, none,
  false⟩

/-- A moment east of UTC is written on the day before; one with a fraction of a second keeps it. -/
theorem timestamp_denotes_instant_sample :
    (∃ cs u, timestamp (some easternMoment) = .ok (String.ofList ('\x27' :: (cs ++ ['\x27']))) ∧
      HasShape (stampShape false).toList cs ∧ Moment.ofIso? (String.ofList cs) = some u ∧
      u.offset.map Offset.seconds = some 0 ∧ u.instant = easternMoment.instant) ∧
    timestamp (some easternMoment) = .ok "'2026-02-28T18:59:45+00:00'" ∧
    timestamp (some laterMoment) = .ok "'2026-02-28T18:59:45.500000+00:00'" ∧
    "'2026-02-28T18:59:45+00:00'" < "'2026-02-28T18:59:45.500000+00:00'" :=
  have heast : timestamp (some easternMoment) = .ok "'2026-02-28T18:59:45+00:00'" := by
    decide +kernel
  have hlater : timestamp (some laterMoment) = .ok "'2026-02-28T18:59:45.500000+00:00'" := by
    decide +kernel
  ⟨(timestamp_denotes_instant.1 easternMoment).2 (by decide +kernel), heast, hlater,
    (timestamp_denotes_instant.2 _ _ _ _ heast hlater).2.mpr (by decide +kernel)⟩

end AccessGraph.Sql
