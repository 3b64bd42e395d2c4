import AccessGraph.Proofs.Sql.Jsonb
import AccessGraph.Proofs.Sql.Timestamp
import Mathlib.Algebra.Group.Nat.Even

/-!
# Escaped text

Doubling the quotes of a text loses nothing, and it gives exactly the texts whose runs of quotes are
all of even length (`mem_range_escape_iff`).

A literal is read back whatever follows it, so long as that is no other quote.  `literalsIn` reads
all literals of a text one after another, and a text holds literals (`HoldsLiterals`) when it adds
these and no others to those of what follows.  What writes a value as a literal puts exactly one
into its text: `holds_quote`, `holds_timestamp`, `holds_json` and `holds_lookup`.
-/

namespace AccessGraph.Sql

/-! ## Doubling quotes -/

/-- Texts can be escaped part by part. -/
theorem escape_append (a b : String) : escape (a ++ b) = escape a ++ escape b := by
  rw [← String.toList_inj]
  simp [escapeChars_append]

/-- A literal reads back as its text, in front of any text that does not start with a quote. -/
theorem readLiteral_escape (v rest : String) (hr : rest.toList.head? ≠ some '\x27') :
    readLiteral ("'" ++ escape v ++ "'" ++ rest).toList = some (v.toList, rest.toList) := by
  have htext : ("'" ++ escape v ++ "'" ++ rest).toList = literalChars v.toList ++ rest.toList := by
    simp [literalChars]
  rw [htext]
  exact readLiteral_append v.toList rest.toList hr

/-- Texts that are escaped alike are read back alike. -/
theorem escape_injective : Function.Injective escape := by
  intro v w h
  have hv := readLiteral_escape v "" (by simp)
  rw [h, readLiteral_escape w "" (by simp)] at hv
  exact (String.toList_inj.mp (Prod.mk.inj (Option.some.inj hv)).1).symm

/-! ## Runs of quotes -/

/-- Every longest run of quotes in a text has even length. -/
def EvenRuns (cs : List Char) : Prop :=
  ∀ (before after : List Char) (n : Nat), cs = before ++ (List.replicate n '\x27' ++ after) →
    before.getLast? ≠ some '\x27' → after.head? ≠ some '\x27' → Even n

/-- What does not end a text does not end its tail. -/
private theorem getLast?_ne_of_cons {b c : Char} {bs : List Char}
    (h : (b :: bs).getLast? ≠ some c) :
    bs.getLast? ≠ some c := by
  cases bs with
  | nil => simp
  | cons d ds => simpa using h

/-- A text without quotes has no run of odd length. -/
private theorem evenRuns_nil : EvenRuns [] := by
  intro before after n h hbefore hafter
  have hrun : List.replicate n '\x27' = [] := by
    obtain ⟨-, hrest⟩ := List.append_eq_nil_iff.mp h.symm
    exact (List.append_eq_nil_iff.mp hrest).1
  obtain rfl : n = 0 := by simpa using congrArg List.length hrun
  exact Even.zero

/-- A character that is no quote belongs to no run. -/
private theorem evenRuns_cons {c : Char} (hc : c ≠ '\x27') {cs : List Char} :
    EvenRuns (c :: cs) ↔ EvenRuns cs := by
  constructor
  · intro h before after n heq hbefore hafter
    -- The run stands one place further on, and its neighbour in front is `c` at most.
    refine h (c :: before) after n (by rw [heq]; rfl) ?_ hafter
    cases before with
    | nil => simpa using hc
    | cons b bs => simpa using hbefore
  · intro h before after n heq hbefore hafter
    cases before with
    | nil =>
      cases n with
      | zero => exact Even.zero
      | succ n => exact absurd (List.cons.inj heq).1 hc
    | cons b bs => exact h bs after n (List.cons.inj heq).2 (getLast?_ne_of_cons hbefore) hafter

/-- Two quotes in front make the first run longer by two. -/
private theorem evenRuns_pair {cs : List Char} :
    EvenRuns ('\x27' :: '\x27' :: cs) ↔ EvenRuns cs := by
  constructor
  · intro h before after n heq hbefore hafter
    cases before with
    | nil =>
      -- The run in front goes on to the left.
      have hrun := h [] after (n + 2) (by rw [heq]; rfl) (by simp) hafter
      rwa [Nat.even_add_one, Nat.even_add_one, not_not] at hrun
    | cons b bs =>
      refine h ('\x27' :: '\x27' :: b :: bs) after n (by rw [heq]; rfl) ?_ hafter
      simpa using hbefore
  · intro h before after n heq hbefore hafter
    -- The run is the first one, which has the two quotes and `n` others, or it stands behind them.
    match before, n with
    | [], 0 =>
      rw [List.nil_append, List.replicate_zero, List.nil_append] at heq
      rw [← heq] at hafter
      exact absurd rfl hafter
    | [], 1 =>
      -- A run of one quote would be followed by the other one.
      obtain rfl := (List.cons.inj heq).2
      exact absurd rfl hafter
    | [], n + 2 =>
      have hrest := (List.cons.inj (List.cons.inj heq).2).2
      have hrun := h [] after n hrest (by simp) hafter
      rwa [Nat.even_add_one, Nat.even_add_one, not_not]
    | [b], n =>
      obtain ⟨rfl, -⟩ := List.cons.inj heq
      exact absurd rfl hbefore
    | b :: d :: bs, n =>
      simp only [List.cons_append, List.cons.injEq] at heq
      obtain ⟨-, -, heq⟩ := heq
      exact h bs after n heq (getLast?_ne_of_cons (getLast?_ne_of_cons hbefore)) hafter

/-- A quote that stands alone in front is a run of odd length. -/
private theorem not_evenRuns_lone {cs : List Char} (h : cs.head? ≠ some '\x27') :
    ¬ EvenRuns ('\x27' :: cs) := by
  intro heven
  have hone := heven [] cs 1 rfl (by simp) h
  exact absurd hone (by decide)

/-- A quote that is written twice goes to a run in twos. -/
private theorem evenRuns_escapeChars (v : List Char) : EvenRuns (escapeChars v) := by
  induction v with
  | nil => exact evenRuns_nil
  | cons c cs ih =>
    by_cases hc : c = '\x27'
    · rw [escapeChars, if_pos hc]
      exact evenRuns_pair.mpr ih
    · rw [escapeChars, if_neg hc]
      exact (evenRuns_cons hc).mpr ih

/-- Text with even runs is escaped text: it is taken apart as a literal is read, and the case of a
lone quote does not come up. -/
private theorem exists_escapeChars {cs : List Char} (h : EvenRuns cs) :
    ∃ v, escapeChars v = cs := by
  fun_induction literalRest cs with
  | case1 => exact ⟨[], rfl⟩
  | case2 cs ih =>
    obtain ⟨v, rfl⟩ := ih (evenRuns_pair.mp h)
    exact ⟨'\x27' :: v, by simp [escapeChars]⟩
  | case3 cs hpair =>
    -- The quote that would close a literal is not followed by another one.
    refine absurd h (not_evenRuns_lone ?_)
    intro hhead
    obtain ⟨rest, hrest⟩ := List.head?_eq_some_iff.mp hhead
    exact hpair rest rfl hrest
  | case4 c cs hpair hc ih =>
    obtain ⟨v, rfl⟩ := ih ((evenRuns_cons hc).mp h)
    exact ⟨c :: v, by simp [escapeChars, hc]⟩

/-- What doubling gives are the texts whose runs of quotes have even length. -/
theorem mem_range_escape_iff {t : String} : t ∈ Set.range escape ↔ EvenRuns t.toList := by
  constructor
  · rintro ⟨v, rfl⟩
    rw [toList_escape]
    exact evenRuns_escapeChars v.toList
  · intro h
    obtain ⟨v, hv⟩ := exists_escapeChars h
    refine ⟨String.ofList v, ?_⟩
    rw [← String.toList_inj, toList_escape, String.toList_ofList, hv]

/-! ## The literals of a text -/

/-- The rest of a literal that is read is what was written for its content. -/
private theorem eq_of_literalRest {cs v rest : List Char} (h : literalRest cs = some (v, rest)) :
    cs = escapeChars v ++ '\x27' :: rest := by
  fun_induction literalRest cs generalizing v with
  | case1 => simp at h
  | case2 cs ih =>
    -- A quote written twice; the closing quote and all other characters follow.
    obtain ⟨⟨w, r⟩, hw, heq⟩ := Option.map_eq_some_iff.mp h
    obtain ⟨rfl, rfl⟩ := Prod.mk.inj heq
    rw [escapeChars, if_pos rfl, ih hw]
    rfl
  | case3 cs hpair =>
    obtain ⟨rfl, rfl⟩ := Prod.mk.inj (Option.some.inj h)
    rfl
  | case4 c cs hpair hc ih =>
    obtain ⟨⟨w, r⟩, hw, heq⟩ := Option.map_eq_some_iff.mp h
    obtain ⟨rfl, rfl⟩ := Prod.mk.inj heq
    rw [escapeChars, if_neg hc, ih hw]
    rfl

/-- Reading a literal uses up its closing quote at least. -/
private theorem length_lt_of_literalRest {cs v rest : List Char}
    (h : literalRest cs = some (v, rest)) :
    rest.length < cs.length := by
  have hlen := congrArg List.length (eq_of_literalRest h)
  rw [List.length_append, List.length_cons] at hlen
  omega

/-- The contents of the literals of a text, one after another, if none of them is left open. -/
def literalsIn : List Char → Option (List String)
  | [] => some []
  | c :: cs =>
    if c = '\x27' then
      match _hread : literalRest cs with
      | some (v, rest) => (literalsIn rest).map (String.ofList v :: ·)
      | none => none
    else literalsIn cs
termination_by cs => cs.length
decreasing_by
  · have hlt := length_lt_of_literalRest _hread
    simp only [List.length_cons]
    omega
  · simp

/-- Text without quotes in front adds no literal. -/
private theorem literalsIn_append_of_notMem {a : List Char} (ha : '\x27' ∉ a) (b : List Char) :
    literalsIn (a ++ b) = literalsIn b := by
  induction a with
  | nil => rfl
  | cons c cs ih =>
    rw [List.mem_cons, not_or] at ha
    rw [List.cons_append, literalsIn, if_neg (Ne.symm ha.1), ih ha.2]

/-- A literal in front is read first, with what it was made of. -/
theorem literalsIn_literalChars (v rest : List Char) (hr : rest.head? ≠ some '\x27') :
    literalsIn (literalChars v ++ rest) = (literalsIn rest).map (String.ofList v :: ·) := by
  have hbody := literalRest_append v rest hr
  rw [literalChars, List.cons_append, List.append_assoc, List.singleton_append, literalsIn,
    if_pos rfl]
  -- the reading the function took is the one `literalRest_append` knows
  split
  · next w r hread =>
    obtain ⟨rfl, rfl⟩ := Prod.mk.inj (Option.some.inj (hread.symm.trans hbody))
    rfl
  · next hread =>
    rw [hbody] at hread
    simp at hread

example : literalsIn "('a''b', 'c')".toList = some ["a'b", "c"] := by cbv

example : literalsIn "it's".toList = none := by cbv

/-- Text adds literals of the given contents, all of them complete, to the literals of what follows
it; what follows must not start with a quote, which would go on with the last one. -/
def HoldsLiterals (s : String) (vs : List String) : Prop :=
  ∀ rest : List Char, rest.head? ≠ some '\x27' →
    literalsIn (s.toList ++ rest) = (literalsIn rest).map (vs ++ ·)

/-- Read on its own, such text has these literals. -/
private theorem HoldsLiterals.literalsIn_eq {s : String} {vs : List String}
    (h : HoldsLiterals s vs) :
    literalsIn s.toList = some vs := by
  have hs := h [] (by simp)
  rw [List.append_nil] at hs
  simpa [literalsIn] using hs

/-- Text without quotes holds no literal. -/
private theorem holds_of_notMem {s : String} (h : '\x27' ∉ s.toList) : HoldsLiterals s [] := by
  intro rest _
  rw [literalsIn_append_of_notMem h]
  simp

/-- A literal holds itself. -/
theorem holds_literal (v : String) : HoldsLiterals (literal v) [v] := by
  intro rest hr
  rw [toList_literal, literalsIn_literalChars _ _ hr, String.ofList_toList]
  rfl

/-- Text without quotes in front changes nothing, not even in front of a literal. -/
theorem HoldsLiterals.behind {a b : String} {vs : List String} (ha : '\x27' ∉ a.toList)
    (hb : HoldsLiterals b vs) : HoldsLiterals (a ++ b) vs := by
  intro rest hr
  rw [String.toList_append, List.append_assoc, literalsIn_append_of_notMem ha, hb rest hr]

/-- Texts one behind the other hold the literals of both, where the second does not start with a
quote. -/
theorem HoldsLiterals.append {a b : String} {vs ws : List String} (ha : HoldsLiterals a vs)
    (hb : HoldsLiterals b ws) (hhead : b.toList.head? ≠ some '\x27') :
    HoldsLiterals (a ++ b) (vs ++ ws) := by
  intro rest hr
  rw [String.toList_append, List.append_assoc, ha _ (head?_append_ne hhead hr), hb rest hr,
    Option.map_map]
  simp [Function.comp_def]

/-! ## Values written as literals -/

/-- A text that is not empty is quoted as one literal. -/
theorem holds_quote {v : String} (h : v ≠ "") : HoldsLiterals (quote (some v)) [v] := by
  have hquote : quote (some v) = literal v := by simp [quote, h]
  rw [hquote]
  exact holds_literal v

/-- A moment is written as one literal with its form in UTC, if it has one. -/
theorem holds_timestamp (m : Moment) :
    (∃ u s, m.utc? = some u ∧ timestamp (some m) = .ok s ∧ HoldsLiterals s [u.iso]) ∨
      (m.utc? = none ∧ timestamp (some m) = .error .outOfRange) := by
  cases hutc : m.utc? with
  | some u =>
    refine .inl ⟨u, literal u.iso, rfl, ?_, holds_literal u.iso⟩
    rw [timestamp, hutc]
  | none => exact .inr ⟨rfl, timestamp_eq_error_iff.mpr hutc⟩

/-- A value is written as one literal with its JSON text, if it has one. -/
theorem holds_json (v : Value) :
    (∃ p s, Json.encode (written v) = .ok p ∧ json v = .ok s ∧
      HoldsLiterals s [String.ofList p]) ∨
    ∃ fault, Json.encode (written v) = .error fault ∧ json v = .error (.key fault) := by
  cases hencode : Json.encode (written v) with
  | ok p =>
    have hcast : HoldsLiterals "::jsonb" [] := holds_of_notMem (by decide)
    refine .inl ⟨p, literal (String.ofList p) ++ "::jsonb", rfl, ?_,
      (holds_literal _).append hcast (by decide)⟩
    rw [written] at hencode
    rw [json, hencode]
  | error fault =>
    refine .inr ⟨fault, rfl, ?_⟩
    rw [written] at hencode
    rw [json, hencode]

/-- What is not null is written as what it is. -/
private theorem jsonOrNull_of_ne_null {v : Value} (h : v ≠ .null) : jsonOrNull v = json v := by
  cases v with
  | null => exact absurd rfl h
  | _ => rfl

/-- Whatever the table and the column are, the value asked for is read behind them. -/
private theorem readLiteral_lookup (table column value rest : String) :
    ∃ text, (lookup table column value ++ rest).toList
        = ("(SELECT id FROM " ++ table ++ " WHERE " ++ column ++ " = ").toList ++ text ∧
      readLiteral text = some (value.toList, ')' :: rest.toList) := by
  refine ⟨literalChars value.toList ++ ')' :: rest.toList, ?_,
    readLiteral_append _ _ (by simp)⟩
  rw [String.toList_append, toList_lookup]
  simp only [String.toList_append, List.append_assoc, List.singleton_append]

/-- The lookup of a row adds the value it asks for to the literals of the table and of the column,
which hold none if they are names. -/
theorem holds_lookup {table column : String} {ts us : List String} (ht : HoldsLiterals table ts)
    (hc : HoldsLiterals column us) (value : String) :
    HoldsLiterals (lookup table column value) (ts ++ us ++ [value]) := by
  -- from the closing bracket outwards, one piece at a time
  have hend : HoldsLiterals ")" [] := holds_of_notMem (by decide)
  have hvalue : HoldsLiterals (" = " ++ (literal value ++ ")")) [value] :=
    ((holds_literal value).append hend (by decide)).behind (by decide)
  have hcolumn : HoldsLiterals (" WHERE " ++ (column ++ (" = " ++ (literal value ++ ")"))))
      (us ++ [value]) := (hc.append hvalue (by simp)).behind (by decide)
  have htable : HoldsLiterals ("(SELECT id FROM " ++ (table ++ (" WHERE " ++ (column
      ++ (" = " ++ (literal value ++ ")")))))) (ts ++ (us ++ [value])) :=
    (ht.append hcolumn (by simp)).behind (by decide)
  rw [List.append_assoc]
  unfold lookup
  simpa only [String.append_assoc] using htable

/-- A literal reads back as its text in front of anything but a quote.  Doubling the quotes of a
text works piece by piece, loses nothing, and leads to just the texts whose runs of quotes have even
length.  So a value that is written as a literal is one complete literal in what is written: a text,
a time stamp, JSON text, and the value of a lookup, whatever table and column it names. -/
theorem literals_read_back :
    (∀ v rest : String, rest.toList.head? ≠ some '\x27' →
      readLiteral ("'" ++ escape v ++ "'" ++ rest).toList = some (v.toList, rest.toList)) ∧
    (∀ a b : String, escape (a ++ b) = escape a ++ escape b) ∧
    Function.Injective escape ∧
    (∀ t : String, t ∈ Set.range escape ↔ EvenRuns t.toList) ∧
    (∀ v : String, v ≠ "" → HoldsLiterals (quote (some v)) [v]) ∧
    (∀ m : Moment,
      (∃ u s, m.utc? = some u ∧ timestamp (some m) = .ok s ∧ HoldsLiterals s [u.iso]) ∨
      (m.utc? = none ∧ timestamp (some m) = .error .outOfRange)) ∧
    (∀ v : Value, (v ≠ .null → jsonOrNull v = json v) ∧
      ((∃ p s, Json.encode (written v) = .ok p ∧ json v = .ok s ∧
        HoldsLiterals s [String.ofList p]) ∨
      ∃ fault, Json.encode (written v) = .error fault ∧ json v = .error (.key fault))) ∧
    ∀ table column value : String,
      (∀ rest : String, ∃ text, (lookup table column value ++ rest).toList
          = ("(SELECT id FROM " ++ table ++ " WHERE " ++ column ++ " = ").toList ++ text ∧
        readLiteral text = some (value.toList, ')' :: rest.toList)) ∧
      ∀ ts us, HoldsLiterals table ts → HoldsLiterals column us →
        HoldsLiterals (lookup table column value) (ts ++ us ++ [value]) :=
  ⟨readLiteral_escape, escape_append, escape_injective, fun _ => mem_range_escape_iff,
    fun _ => holds_quote, holds_timestamp, fun v => ⟨jsonOrNull_of_ne_null, holds_json v⟩,
    fun table column value => ⟨readLiteral_lookup table column value,
      fun _ _ ht hc => holds_lookup ht hc value⟩⟩

/-- Texts with quotes at both ends, of quotes only, and in a lookup behind two names. -/
theorem literals_read_back_sample :
    readLiteral ("'" ++ escape "'it''s'" ++ "'" ++ "::jsonb").toList
      = some ("'it''s'".toList, "::jsonb".toList) ∧
    HoldsLiterals (quote (some "''")) ["''"] ∧
    literalsIn (lookup "supamode.roles" "name" "O'Neil").toList = some ["O'Neil"] := by
  obtain ⟨hread, -, -, -, hquote, -, -, hlookup⟩ := literals_read_back
  have htable : HoldsLiterals "supamode.roles" [] := holds_of_notMem (by decide)
  have hcolumn : HoldsLiterals "name" [] := holds_of_notMem (by decide)
  exact ⟨hread "'it''s'" "::jsonb" (by decide), hquote "''" (by decide),
    ((hlookup "supamode.roles" "name" "O'Neil").2 [] [] htable hcolumn).literalsIn_eq⟩

end AccessGraph.Sql
