import AccessGraph.Proofs.Config.Reading
import AccessGraph.Proofs.Json.Printable
import AccessGraph.Proofs.Json.RoundTrip
import AccessGraph.Proofs.Sql.Expression

/-!
# Literals of JSON text

A `jsonb` literal is a string literal with JSON text inside and a cast behind it.  Both layers are
undone here: `readLiteral` finds the text, and `Json.read?` its value.

Dictionaries of plain data come back as they were (`json_round_trip`).  For tables in general the
text inside the literal is JSON just when all binary64 numbers in the table are finite
(`jsonTable_isJson_iff`): configurations may hold others, and those are written by names that JSON
does not have.
-/

namespace AccessGraph.Sql

open Text (isPlainAscii)
open Json (PlainAscii)

/-- The cast behind the literal. -/
def castChars : List Char := "::jsonb".toList

/-- What is written for a value: the empty dictionary for one that counts as absent. -/
def written (v : Value) : Value := if v.isTruthy then v else .dictionary []

/-- A dictionary is written as it is. -/
private theorem written_dictionary (es : Entries) : written (.dictionary es) = .dictionary es := by
  cases es <;> rfl

/-- The literal of a value is its encoding in quotes, with the cast behind it. -/
theorem json_eq_ok {v : Value} {s : String} :
    json v = .ok s ↔
      ∃ p, Json.encode (written v) = .ok p ∧ s.toList = literalChars p ++ castChars := by
  have htext : ∀ p, (literal (String.ofList p) ++ "::jsonb").toList
      = literalChars p ++ castChars := fun p => by
    rw [String.toList_append, toList_literal, String.toList_ofList]
    rfl
  unfold json written
  cases Json.encode (if v.isTruthy = true then v else .dictionary []) with
  | error fault => simp
  | ok p =>
    show Except.ok (literal (String.ofList p) ++ "::jsonb") = .ok s ↔ _
    rw [Except.ok.injEq, ← String.toList_inj, htext]
    simp [eq_comm]

/-- Both layers of a literal come off again. -/
private theorem readLiteral_of_json {v : Value} {s : String} (h : json v = .ok s) :
    ∃ content, readLiteral s.toList = some (content, castChars) ∧
      Json.read? content = (written v).jsonForm := by
  obtain ⟨p, hp, hs⟩ := json_eq_ok.mp h
  have hcast : castChars.head? ≠ some '\x27' := by decide
  refine ⟨p, ?_, Json.read?_encode hp⟩
  rw [hs]
  exact readLiteral_append p castChars hcast

/-- A value whose keys all have a JSON form is written. -/
private theorem exists_json {v : Value} (h : ∀ k ∈ v.innerKeys, k.isJsonKey = true) :
    ∃ s, json v = .ok s := by
  -- an empty table is written for a false value, and it has no keys
  have hkeys : ∀ k ∈ (written v).innerKeys, k.isJsonKey = true := by
    unfold written
    split
    · exact h
    · simp [Value.innerKeys, Value.innerKeysOfEntries]
  have hnone := Json.failure?_encode (written v)
  rw [Json.badKey?_eq_none_iff.mpr hkeys] at hnone
  cases hencode : Json.encode (written v) with
  | error fault => simp [hencode] at hnone
  | ok p =>
    exact ⟨String.ofList (literalChars p ++ castChars),
      json_eq_ok.mpr ⟨p, hencode, String.toList_ofList⟩⟩

/-- Escaping keeps characters plain. -/
private theorem plainAscii_escapeChars {cs : List Char} (h : PlainAscii cs) :
    PlainAscii (escapeChars cs) := by
  have hquote : isPlainAscii '\x27' = true := by decide
  induction cs with
  | nil => exact Json.plainAscii_nil
  | cons c cs ih =>
    have hc := h c List.mem_cons_self
    have hrest := ih fun d hd => h d (List.mem_cons_of_mem c hd)
    -- a doubled quote is two ASCII characters for one
    by_cases hq : c = '\x27'
    · rw [escapeChars, if_pos hq]
      exact (hrest.cons hquote).cons hquote
    · rw [escapeChars, if_neg hq]
      exact hrest.cons hc

/-- Doubled quotes and the cast are printable as well. -/
private theorem plainAscii_json {v : Value} {s : String} (h : json v = .ok s) :
    PlainAscii s.toList := by
  have hquote : isPlainAscii '\x27' = true := by decide
  obtain ⟨p, hp, hs⟩ := json_eq_ok.mp h
  have hbody := plainAscii_escapeChars (Json.plainAscii_encode _ hp)
  have hcast : PlainAscii castChars := Json.plainAscii_of_all (by decide +kernel)
  rw [hs]
  exact ((hbody.append (Json.plainAscii_nil.cons hquote)).cons hquote).append hcast

/-- A dictionary of plain data comes back from its literal as it was, in the order of its entries,
so that no two have one literal; and the literal of any value whose keys can be written is made of
the characters of printable ASCII. -/
theorem json_round_trip :
    (∀ es : Entries, (Value.dictionary es).IsPlain → ∃ s content,
      json (.dictionary es) = .ok s ∧ readLiteral s.toList = some (content, castChars) ∧
      Json.read? content = some (.dictionary es)) ∧
    (∀ (es fs : Entries) (s : String), (Value.dictionary es).IsPlain →
      (Value.dictionary fs).IsPlain → json (.dictionary es) = .ok s →
      json (.dictionary fs) = .ok s → es = fs) ∧
    ∀ v : Value, (∀ k ∈ v.innerKeys, k.isJsonKey = true) → ∃ s, json v = .ok s ∧
      ∀ c ∈ s.toList, 0x20 ≤ c.toNat ∧ c.toNat < 0x7F := by
  -- What a literal of plain data reads as is the dictionary it was written for.
  have hread : ∀ (es : Entries) (s : String), (Value.dictionary es).IsPlain →
      json (.dictionary es) = .ok s → ∃ content,
        readLiteral s.toList = some (content, castChars) ∧
        Json.read? content = some (.dictionary es) := by
    intro es s hplain hs
    obtain ⟨content, hliteral, hvalue⟩ := readLiteral_of_json hs
    rw [written_dictionary, hplain.jsonForm_eq] at hvalue
    exact ⟨content, hliteral, hvalue⟩
  refine ⟨fun es hplain => ?_, fun es fs s hes hfs hs ht => ?_, fun v hkeys => ?_⟩
  · obtain ⟨s, hs⟩ := exists_json hplain.isJsonKey
    obtain ⟨content, hliteral, hvalue⟩ := hread es s hplain hs
    exact ⟨s, content, hs, hliteral, hvalue⟩
  · obtain ⟨content, hliteral, hvalue⟩ := hread es s hes hs
    obtain ⟨content', hliteral', hvalue'⟩ := hread fs s hfs ht
    obtain ⟨rfl, -⟩ := Prod.mk.inj (Option.some.inj (hliteral.symm.trans hliteral'))
    exact Value.dictionary.inj (Option.some.inj (hvalue.symm.trans hvalue'))
  · obtain ⟨s, hs⟩ := exists_json hkeys
    refine ⟨s, hs, fun c hc => ?_⟩
    have hplain := plainAscii_json hs c hc
    simpa [isPlainAscii] using hplain

/-- A dictionary with a quote, a nested list, a character beyond the first plane and a control. -/
def nestedEntries : Entries :=
  [(.text "a'b", .list [.int (-12), .bool true, .null]), (.text "😀", .text "\n")]

/-- The entries of the sample are plain. -/
private theorem isPlain_of_mem_nestedEntries {e : Value × Value} (he : e ∈ nestedEntries) :
    (∃ s, e.1 = .text s) ∧ e.2.IsPlain := by
  have hlist : (Value.list [.int (-12), .bool true, .null]).IsPlain := by
    refine .list fun x hx => ?_
    simp only [List.mem_cons, List.not_mem_nil, or_false] at hx
    rcases hx with rfl | rfl | rfl
    · exact .int _
    · exact .bool _
    · exact .null
  simp only [nestedEntries, List.mem_cons, List.not_mem_nil, or_false] at he
  rcases he with rfl | rfl
  · exact ⟨⟨_, rfl⟩, hlist⟩
  · exact ⟨⟨_, rfl⟩, .text _⟩

/-- A tuple of a date and bytes under a number as a key. -/
def mixedValue : Value :=
  .dictionary [(.int 1, .tuple [.date ⟨2026, 1, 31, by decide⟩, .bytes [0x27, 0xFF]])]

/-- Nested entries with a quote, a line feed and a surrogate pair are read back; in another order
they have another literal. -/
theorem json_round_trip_sample :
    (∃ s content, json (.dictionary nestedEntries) = .ok s ∧
      readLiteral s.toList = some (content, castChars) ∧
      Json.read? content = some (.dictionary nestedEntries)) ∧
    json (.dictionary nestedEntries)
      = .ok "'\x7b\"a''b\": [-12, true, null], \"\\ud83d\\ude00\": \"\\n\"\x7d'::jsonb" ∧
    json (.dictionary nestedEntries.reverse)
      ≠ .ok "'\x7b\"a''b\": [-12, true, null], \"\\ud83d\\ude00\": \"\\n\"\x7d'::jsonb" ∧
    ∃ s, json mixedValue = .ok s ∧ ∀ c ∈ s.toList, 0x20 ≤ c.toNat ∧ c.toNat < 0x7F :=
  have hplain : (Value.dictionary nestedEntries).IsPlain :=
    .dictionary (fun _ he => (isPlain_of_mem_nestedEntries he).1)
      fun _ he => (isPlain_of_mem_nestedEntries he).2
  have hreverse : (Value.dictionary nestedEntries.reverse).IsPlain :=
    .dictionary (fun _ he => (isPlain_of_mem_nestedEntries (List.mem_reverse.mp he)).1)
      fun _ he => (isPlain_of_mem_nestedEntries (List.mem_reverse.mp he)).2
  have htext : json (.dictionary nestedEntries)
      = .ok "'\x7b\"a''b\": [-12, true, null], \"\\ud83d\\ude00\": \"\\n\"\x7d'::jsonb" := by
    decide +kernel
  -- the two orders of the entries are two values, so they have two texts
  have hne : nestedEntries ≠ nestedEntries.reverse := by simp [nestedEntries]
  ⟨json_round_trip.1 _ hplain, htext,
    fun h => hne (json_round_trip.2.1 _ _ _ hplain hreverse htext h),
    json_round_trip.2.2 mixedValue (by decide +kernel)⟩

/-! ## Literals that hold no JSON text -/

/-- The text inside the literal of a table is JSON just when all binary64 numbers in the table are
finite, at any depth.  An optional column has the same literal. -/
theorem jsonTable_isJson_iff {t : Table} {s : String} (h : jsonTable t = .ok s) :
    jsonOption (some t) = .ok s ∧ ∃ content,
      readLiteral s.toList = some (content, castChars) ∧
      ((Json.read? content).isSome = true
        ↔ ∀ x ∈ (Value.ofTable t).innerDoubles, x.isFinite = true) := by
  obtain ⟨content, hliteral, hvalue⟩ := readLiteral_of_json h
  have hwritten : written (Value.ofTable t) = Value.ofTable t := written_dictionary _
  refine ⟨h, content, hliteral, ?_⟩
  rw [hvalue, hwritten]
  exact Value.isSome_jsonForm_iff _

/-- A table with a finite number and, further inside, an infinite one. -/
def boundsTable : Table :=
  [("ratio", .double (.finite false 1 (-1))), ("bounds", .tuple [.int 0, .double (.infinite true)])]

/-- A table with an infinite bound has a literal, and that is not JSON. -/
theorem jsonTable_isJson_iff_sample :
    jsonTable boundsTable = .ok "'\x7b\"ratio\": 0.5, \"bounds\": [0, -Infinity]\x7d'::jsonb" ∧
    ∃ content, readLiteral "'\x7b\"ratio\": 0.5, \"bounds\": [0, -Infinity]\x7d'::jsonb".toList
        = some (content, castChars) ∧
      ((Json.read? content).isSome = true
        ↔ ∀ x ∈ (Value.ofTable boundsTable).innerDoubles, x.isFinite = true) :=
  have htext : jsonTable boundsTable
      = .ok "'\x7b\"ratio\": 0.5, \"bounds\": [0, -Infinity]\x7d'::jsonb" := by
    decide +kernel
  ⟨htext, (jsonTable_isJson_iff htext).2⟩

/-- Metadata with the value that is no number. -/
def nanTable : Table := [("score", .double .nan)]

/-- An account may have metadata whose literal holds no JSON text. -/
theorem nan_is_not_json :
    AccountConfig.parse (.dictionary [(.text "metadata", .ofTable nanTable)]) = .ok ⟨nanTable⟩ ∧
    jsonTable nanTable = .ok "'\x7b\"score\": NaN\x7d'::jsonb" ∧
    readLiteral "'\x7b\"score\": NaN\x7d'::jsonb".toList
      = some ("\x7b\"score\": NaN\x7d".toList, castChars) ∧
    (Json.read? "\x7b\"score\": NaN\x7d".toList).isSome = false := by
  refine ⟨rfl, by decide +kernel, by decide +kernel, by decide +kernel⟩

end AccessGraph.Sql
