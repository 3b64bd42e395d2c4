import AccessGraph.Proofs.Sql.Insertion

/-!
# Rows of typed expressions

`Row.ofExprs` is a row whose cells are given as expressions rather than as their text.  A row is
`Written` as a text when that is one of its layouts.  A written row is a statement for the scanner
(`Row.Written.isSpaced`) and reads back as the table, the columns and the expressions it was made of
(`Row.Written.read?`).

Names of tables and columns are the only text in a row that is written as it is, so these results
ask that they are made of the characters of names.
-/

namespace AccessGraph.Sql

/-! ## Single expressions -/

/-- What holds of every single character of a decimal integer. -/
private theorem all_intDigits {p : Char → Bool} (hdash : p '-' = true)
    (hdigit : ∀ c : Char, c.isDigit = true → p c = true) (n : Int) :
    (Text.intDigits n).all p = true := by
  have hnat : ∀ m, (Text.natDigits m).all p = true := fun m =>
    List.all_eq_true.mpr fun c hc => hdigit c (Text.isDigit_of_mem_natDigits hc)
  cases n with
  | ofNat n => exact hnat n
  | negSucc n => rw [Text.intDigits, List.all_cons, hdash, hnat, Bool.and_self]

/-- The range of codes in which digits lie. -/
private theorem toNat_of_isDigit {c : Char} (h : c.isDigit = true) :
    48 ≤ c.toNat ∧ c.toNat ≤ 57 := by
  simp only [Char.isDigit, Bool.and_eq_true, decide_eq_true_eq] at h
  exact ⟨UInt32.le_iff_toNat_le.mp h.1, UInt32.le_iff_toNat_le.mp h.2⟩

/-- The range of codes in which letters lie. -/
private theorem toNat_of_isAlpha {c : Char} (h : c.isAlpha = true) :
    65 ≤ c.toNat ∧ c.toNat ≤ 122 := by
  unfold Char.isAlpha Char.isUpper Char.isLower at h
  simp only [Bool.or_eq_true, Bool.and_eq_true, decide_eq_true_eq] at h
  rcases h with h | h
  · have hlow : 65 ≤ c.toNat := UInt32.le_iff_toNat_le.mp h.1
    have hhigh : c.toNat ≤ 90 := UInt32.le_iff_toNat_le.mp h.2
    omega
  · have hlow : 97 ≤ c.toNat := UInt32.le_iff_toNat_le.mp h.1
    have hhigh : c.toNat ≤ 122 := UInt32.le_iff_toNat_le.mp h.2
    omega

/-- Printable ASCII other than the space is not blank. -/
private theorem isBlankChar_of_ascii {c : Char} (hlow : 33 ≤ c.toNat) (hhigh : c.toNat ≤ 126) :
    Text.isBlankChar c = false := by
  simp only [Text.isBlankChar, Text.inRanges, Text.blankRanges, List.any_cons, List.any_nil,
    Bool.or_false, Bool.or_eq_false_iff, Bool.and_eq_false_iff, decide_eq_false_iff_not]
  omega

/-- A digit is not blank. -/
theorem isBlankChar_of_isDigit {c : Char} (h : c.isDigit = true) :
    Text.isBlankChar c = false := by
  have hc := toNat_of_isDigit h
  exact isBlankChar_of_ascii (by omega) (by omega)

private theorem isPart_of_isDigit {c : Char} (h : c.isDigit = true) : isPart c = true :=
  isPart_of (by decide) (by decide) (by decide) (by decide) h

private theorem isPart_of_isNameChar {c : Char} (h : isNameChar c = true) : isPart c = true :=
  isPart_of (by decide) (by decide) (by decide) (by decide) h

/-- A name splits nothing. -/
theorem IsName.passes {s : String} (h : IsName s) : Passes s.toList :=
  passes_of_isPart (List.all_eq_true.mpr fun c hc =>
    isPart_of_isNameChar (List.all_eq_true.mp h c hc))

/-- Text without blanks has none at its ends. -/
private theorem hasEdges_of_all {t : List Char} (hne : t ≠ [])
    (h : t.all (fun c => !Text.isBlankChar c) = true) : HasEdges t := by
  have hblank : ∀ c ∈ t, Text.isBlankChar c = false := fun c hc => by
    simpa using List.all_eq_true.mp h c hc
  refine ⟨⟨t.head hne, List.head?_eq_some_head hne, hblank _ (List.head_mem hne)⟩,
    t.getLast hne, List.getLast?_eq_some_getLast hne, hblank _ (List.getLast_mem hne)⟩

/-- Text between two characters that are not blank. -/
private theorem hasEdges_cons_append {c d : Char} (t : List Char) (hc : Text.isBlankChar c = false)
    (hd : Text.isBlankChar d = false) : HasEdges (c :: (t ++ [d])) :=
  ⟨⟨c, rfl, hc⟩, d, by rw [← List.cons_append, List.getLast?_concat], hd⟩

/-- An integer is written with at least one digit. -/
private theorem intDigits_ne_nil (n : Int) : Text.intDigits n ≠ [] := by
  cases n with
  | ofNat n => exact Text.natDigits_ne_nil n
  | negSucc n => exact List.cons_ne_nil _ _

/-- The subquery for a row is text between parentheses. -/
private theorem toList_lookup_parenthesized (table column value : String) :
    (Sql.lookup table column value).toList = '(' :: ("SELECT id FROM ".toList ++ (table.toList
      ++ (" WHERE ".toList ++ (column.toList ++ (" = ".toList ++ literalChars value.toList))))
      ++ [')']) := by
  rw [toList_lookup]
  simp

/-- An expression splits nothing, so the list of values is split between expressions only. -/
private theorem passes_text {e : Expr} (h : e.WellNamed) : Passes e.text.toList := by
  -- one case for each expression, in the order of its text
  cases e with
  | null => exact passes_of_isPart (by decide)
  | literal s =>
    rw [Expr.text, toList_literal]
    exact passes_literal _
  | jsonb s =>
    rw [Expr.text, String.toList_append, toList_literal]
    exact passes_append (passes_literal _) (passes_of_isPart (by decide))
  | integer n =>
    rw [Expr.text, Text.intText, String.toList_ofList]
    exact passes_of_isPart (all_intDigits (by decide) (fun _ => isPart_of_isDigit) n)
  | truth b => cases b <;> exact passes_of_isPart (by decide)
  | now =>
    have htext : Expr.now.text.toList = "NOW".toList ++ '(' :: ([] ++ [')']) := by
      simp [Expr.text]
    rw [htext]
    exact passes_append (passes_of_isPart (by decide)) (passes_parenthesized passes_nil)
  | lookup table column value =>
    -- the subquery is one bracketed part, whatever its literal holds
    rw [Expr.text, toList_lookup_parenthesized]
    apply passes_parenthesized
    apply passes_append (passes_of_isPart (by decide))
    apply passes_append h.1.passes
    apply passes_append (passes_of_isPart (by decide))
    apply passes_append h.2.passes
    exact passes_append (passes_of_isPart (by decide)) (passes_literal _)

/-- An expression has no blank at its ends. -/
private theorem hasEdges_text (e : Expr) : HasEdges e.text.toList := by
  -- the first and the last character of each form; only a number's are not fixed
  cases e with
  | null => exact hasEdges_of_all (by decide) (by decide)
  | literal s =>
    rw [Expr.text, toList_literal]
    exact hasEdges_cons_append _ (by decide) (by decide)
  | jsonb s =>
    have htext : (Expr.jsonb s).text.toList
        = '\x27' :: (escapeChars s.toList ++ '\x27' :: "::json".toList ++ ['b']) := by
      simp [Expr.text, literalChars]
    rw [htext]
    exact hasEdges_cons_append _ (by decide) (by decide)
  | integer n =>
    rw [Expr.text, Text.intText, String.toList_ofList]
    refine hasEdges_of_all (intDigits_ne_nil n) (all_intDigits (by decide) (fun c hc => ?_) n)
    rw [isBlankChar_of_isDigit hc, Bool.not_false]
  | truth b => cases b <;> exact hasEdges_of_all (by decide) (by decide)
  | now => exact hasEdges_of_all (by decide) (by decide)
  | lookup table column value =>
    rw [Expr.text, toList_lookup_parenthesized]
    exact hasEdges_cons_append _ (by decide) (by decide)

/-- The digits of an integer are quiet, with a dash in front or not. -/
private theorem quiet_intDigits (n : Int) : Quiet (Text.intDigits n) := by
  have hinert : ∀ c : Char, c.isDigit = true → isInert c = true := fun c hc =>
    isInert_of_isNameChar (by simp [isNameChar, hc])
  have hnat : ∀ m, (Text.natDigits m).all isInert = true := fun m =>
    List.all_eq_true.mpr fun c hc => hinert c (Text.isDigit_of_mem_natDigits hc)
  cases n with
  | ofNat n => exact quiet_of_inert (hnat n)
  | negSucc n =>
    -- The sign is a single dash, since digits follow it.
    refine .dash (fun hhead => ?_) (quiet_of_inert (hnat (n + 1)))
    have hdash := Text.isDigit_of_mem_natDigits (List.mem_of_mem_head? hhead)
    exact absurd hdash (by decide)

/-- An expression is quiet, so it ends no statement and starts no comment. -/
theorem quiet_text {e : Expr} (h : e.WellNamed) : Quiet e.text.toList := by
  -- a literal is skipped whole, the rest of each form has nothing the scanner minds
  cases e with
  | null => exact quiet_of_inert (by decide)
  | literal s =>
    rw [Expr.text, toList_literal]
    exact quiet_literal _
  | jsonb s =>
    rw [Expr.text, String.toList_append, toList_literal]
    exact .literal _ (by decide) (quiet_of_inert (by decide))
  | integer n =>
    rw [Expr.text, Text.intText, String.toList_ofList]
    exact quiet_intDigits n
  | truth b => cases b <;> exact quiet_of_inert (by decide)
  | now => exact quiet_of_inert (by decide)
  | lookup table column value =>
    rw [Expr.text, toList_lookup]
    apply quiet_inert_append (by decide)
    apply quiet_inert_append h.1.inert
    apply quiet_inert_append (by decide)
    apply quiet_inert_append h.2.inert
    apply quiet_inert_append (by decide)
    exact .literal _ (by decide) (quiet_of_inert (by decide))

/-! ## Rows -/

/-- A row given by typed cells. -/
def Row.ofExprs (table : String) (cells : List (String × Expr)) : Row :=
  ⟨table, cells.map fun x => (x.1, x.2.text)⟩

/-- Text that names a column. -/
def IsColumn (s : String) : Prop :=
  s.toList ≠ [] ∧ s.toList.all (fun c => isIdentifierStart c || c.isDigit) = true

instance (s : String) : Decidable (IsColumn s) :=
  inferInstanceAs (Decidable (s.toList ≠ [] ∧
    s.toList.all (fun c => isIdentifierStart c || c.isDigit) = true))

/-- Letters, underscores and digits may stand in names. -/
theorem isNameChar_of_word {c : Char} (h : (isIdentifierStart c || c.isDigit) = true) :
    isNameChar c = true := by
  simp [isNameChar, h]

/-- A column's name is a name. -/
theorem IsColumn.isName {s : String} (h : IsColumn s) : IsName s :=
  List.all_eq_true.mpr fun c hc => isNameChar_of_word (List.all_eq_true.mp h.2 c hc)

/-- No character of a column is blank. -/
private theorem isBlankChar_of_word {c : Char} (h : (isIdentifierStart c || c.isDigit) = true) :
    Text.isBlankChar c = false := by
  simp only [isIdentifierStart, Bool.or_eq_true, decide_eq_true_eq] at h
  rcases h with (h | rfl) | h
  · have hc := toNat_of_isAlpha h
    exact isBlankChar_of_ascii (by omega) (by omega)
  · decide
  · exact isBlankChar_of_isDigit h

private theorem IsColumn.hasEdges {s : String} (h : IsColumn s) : HasEdges s.toList :=
  hasEdges_of_all h.1 (List.all_eq_true.mpr fun c hc => by
    rw [isBlankChar_of_word (List.all_eq_true.mp h.2 c hc), Bool.not_false])

/-- A table and typed cells that make a row: there is a cell, and names are names. -/
structure WellNamed (table : String) (cells : List (String × Expr)) : Prop where
  table : IsName table
  cells_ne_nil : cells ≠ []
  columns : ∀ c ∈ cells.map (·.1), IsColumn c
  values : ∀ x ∈ cells, x.2.WellNamed

/-- Each cell of a row that is well named has a column's name. -/
theorem WellNamed.column {table : String} {cells : List (String × Expr)}
    (h : WellNamed table cells) {x : String × Expr} (hx : x ∈ cells) : IsColumn x.1 :=
  h.columns x.1 (List.mem_map_of_mem hx)

/-- The text of a row: its values with blanks in front, between and behind, and a tail. -/
def Row.layout (r : Row) (front gap close tail : List Char) : List Char :=
  r.head.toList ++ (front ++ ((',' :: gap).intercalate (r.cells.map fun x => x.2.toList)
    ++ (close ++ ')' :: tail)))

/-- Text that is a row laid out in some way, perhaps behind line feeds. -/
def Row.Written (r : Row) (s : String) : Prop :=
  ∃ feeds front gap close tail, feeds.all (· == '\n') = true ∧ Blank front ∧ Blank gap
    ∧ Blank close ∧ tail.all isInert = true
    ∧ s.toList = feeds ++ r.layout front gap close (tail ++ [';'])

/-- A row on one line is one way to write it. -/
theorem Row.written_inline (r : Row) : r.Written (r.inline ++ ";") :=
  ⟨[], [], [' '], [], [], rfl, rfl, by decide, rfl, rfl, by
    simp [Row.inline, Row.layout, Function.comp_def]⟩

/-- A row stays written behind a line feed. -/
theorem Row.written_feed {r : Row} {s : String} (h : r.Written s) : r.Written ("\n" ++ s) := by
  obtain ⟨feeds, front, gap, close, tail, hfeeds, hfront, hgap, hclose, htail, hs⟩ := h
  exact ⟨'\n' :: feeds, front, gap, close, tail, by simpa using hfeeds, hfront, hgap, hclose,
    htail, by simp [hs]⟩

theorem Row.written_spread (r : Row) : r.Written r.spread :=
  ⟨['\n'], ['\n', ' ', ' '], ['\n', ' ', ' '], ['\n'], [], rfl, by decide, by decide, by decide,
    rfl, by simp [Row.spread, Row.layout, Function.comp_def]⟩

theorem Row.written_link (r : Row) : r.Written r.link :=
  ⟨['\n'], [], [' '], [], "\nON CONFLICT DO NOTHING".toList, rfl, rfl, by decide, rfl, by decide, by
    simp [Row.link, Row.inline, Row.layout, Function.comp_def]⟩

/-- The characters in front of the values, part by part. -/
private theorem toList_head (r : Row) :
    r.head.toList = "INSERT INTO ".toList ++ (r.table.toList ++ (" (".toList
      ++ ([',', ' '].intercalate (r.cells.map fun x => x.1.toList) ++ ")\nVALUES (".toList))) := by
  simp [Row.head, Function.comp_def]

/-- The texts between commas and blanks are quiet together when each is. -/
private theorem quiet_intercalate {gap : List Char} (hgap : gap.all isInert = true)
    {ts : List (List Char)} (h : ∀ t ∈ ts, Quiet t) : Quiet ((',' :: gap).intercalate ts) := by
  induction ts with
  | nil => exact .nil
  | cons t ts ih =>
    cases ts with
    | nil =>
      rw [List.intercalate_singleton]
      exact h t List.mem_cons_self
    | cons u us =>
      have htail := ih fun w hw => h w (List.mem_cons_of_mem t hw)
      -- The comma keeps a text from running on into the next one.
      have hsep : (',' :: gap).all isInert = true := by
        rw [List.all_cons, hgap]
        decide
      rw [List.intercalate_cons_cons, List.append_assoc]
      exact quiet_append (h t List.mem_cons_self) (quiet_inert_append hsep htail)
        (follows_cons (by decide) _)

/-- A row, laid out with blanks between its values, is a statement. -/
private theorem isStatement_layout {table : String} {cells : List (String × Expr)}
    (h : WellNamed table cells) {front gap close tail : List Char} (hfront : Blank front)
    (hgap : Blank gap) (hclose : Blank close) (htail : tail.all isInert = true) :
    IsStatement ((Row.ofExprs table cells).layout front gap close (tail ++ [';'])) := by
  have hcolumns : Quiet ([',', ' '].intercalate (cells.map fun x => x.1.toList)) := by
    refine quiet_intercalate (by decide) fun t ht => ?_
    obtain ⟨x, hx, rfl⟩ := List.mem_map.mp ht
    exact quiet_of_inert (h.column hx).isName.inert
  have hvalues : Quiet ((',' :: gap).intercalate (cells.map fun x => x.2.text.toList)) := by
    refine quiet_intercalate hgap.inert fun t ht => ?_
    obtain ⟨x, hx, rfl⟩ := List.mem_map.mp ht
    exact quiet_text (h.values x hx)
  have hend : (close ++ ')' :: tail).all isInert = true := by
    rw [List.all_append, List.all_cons, hclose.inert, htail]
    decide
  -- The first character is set apart, since a statement must not start with a blank.
  refine ⟨'I', "NSERT INTO ".toList ++ (table.toList ++ (" (".toList
    ++ ([',', ' '].intercalate (cells.map fun x => x.1.toList) ++ (")\nVALUES (".toList
    ++ (front ++ ((',' :: gap).intercalate (cells.map fun x => x.2.text.toList)
    ++ (close ++ ')' :: tail))))))), ?_, by decide, by decide, ?_⟩
  · simp [Row.layout, toList_head, Row.ofExprs, Function.comp_def]
  · -- Names and punctuation are inert; only the values bring in literals and dashes.
    apply quiet_inert_append (by decide)
    apply quiet_inert_append h.table.inert
    apply quiet_inert_append (by decide)
    refine quiet_append hcolumns ?_ (follows_cons (by decide) _)
    apply quiet_inert_append (by decide)
    apply quiet_inert_append hfront.inert
    exact quiet_append hvalues (quiet_of_inert hend) (follows_of_inert hend)

/-- A row, laid out with blanks between its values, reads back as it was. -/
private theorem read?_layout {table : String} {cells : List (String × Expr)}
    (h : WellNamed table cells) {pre front gap close tail : List Char} (hpre : Blank pre)
    (hfront : Blank front) (hgap : Blank gap) (hclose : Blank close) {s : String}
    (hs : s.toList = pre ++ (Row.ofExprs table cells).layout front gap close tail) :
    Insertion.read? s = some ⟨table, cells.map (·.1), cells.map (·.2.text)⟩ := by
  obtain ⟨x, xs, rfl⟩ := List.exists_cons_of_ne_nil h.cells_ne_nil
  -- What follows the columns, and what follows the opening of the values.
  let values := front ++ ((',' :: gap).intercalate ((x :: xs).map fun x => x.2.text.toList)
    ++ (close ++ ')' :: tail))
  let columns := [] ++ ([',', ' '].intercalate ((x :: xs).map fun x => x.1.toList)
    ++ ([] ++ ')' :: ("\nVALUES (".toList ++ values)))
  have htext : s.toList.dropWhile Text.isBlankChar
      = "INSERT INTO ".toList ++ (table.toList ++ (" (".toList ++ columns)) := by
    rw [hs, List.dropWhile_append_of_pos (List.all_eq_true.mp hpre)]
    have hI : Text.isBlankChar 'I' = false := by decide
    simp [Row.layout, toList_head, Row.ofExprs, Function.comp_def, columns, values, hI]
  obtain ⟨p, hp, hpt, hpr⟩ : ∃ p, split 0 false columns = some p
      ∧ p.texts = (x :: xs).map (fun x => x.1.toList)
      ∧ p.rest = "\nVALUES (".toList ++ values := by
    refine split_intercalate (by decide) (by decide) _ (by decide) _ _ fun u hu => ?_
    have hmem : u ∈ (x :: xs).map (fun x => x.1.toList) := hu
    obtain ⟨y, hy, rfl⟩ := List.mem_map.mp hmem
    exact ⟨(h.column hy).isName.passes, (h.column hy).hasEdges⟩
  obtain ⟨q, hq, hqt, -⟩ : ∃ q, split 0 false values = some q
      ∧ q.texts = (x :: xs).map (fun x => x.2.text.toList) ∧ q.rest = tail := by
    refine split_intercalate hgap hclose _ hfront _ _ fun u hu => ?_
    have hmem : u ∈ (x :: xs).map (fun x => x.2.text.toList) := hu
    obtain ⟨y, hy, rfl⟩ := List.mem_map.mp hmem
    exact ⟨passes_text (h.values y hy), hasEdges_text y.2⟩
  -- The list of columns ends at the end of its line.
  have hrest : p.rest.dropWhile Text.isBlankChar = "VALUES (".toList ++ values := by
    have hV : Text.isBlankChar 'V' = false := by decide
    have hline : Text.isBlankChar '\n' = true := by decide
    rw [hpr]
    simp [hV, hline]
  rw [Insertion.read?, htext]
  simp only [after?_append, takeName_append h.table (t := " (".toList ++ columns) (by simp), hp,
    hrest, hq, hpt, hqt, Option.bind_eq_bind, Option.bind_some, List.map_map, Function.comp_def,
    String.ofList_toList]
  rfl

/-- A written row is a statement, behind its line feeds. -/
theorem Row.Written.isSpaced {table : String} {cells : List (String × Expr)} {s : String}
    (hs : (Row.ofExprs table cells).Written s) (h : WellNamed table cells) :
    IsSpaced s.toList := by
  obtain ⟨feeds, front, gap, close, tail, hfeeds, hfront, hgap, hclose, htail, htext⟩ := hs
  exact ⟨feeds, _, htext, hfeeds, isStatement_layout h hfront hgap hclose htail⟩

/-- A written row reads back as its table, its columns and the texts of its expressions. -/
theorem Row.Written.read? {table : String} {cells : List (String × Expr)} {s : String}
    (hs : (Row.ofExprs table cells).Written s) (h : WellNamed table cells) :
    Insertion.read? s = some ⟨table, cells.map (·.1), cells.map (·.2.text)⟩ := by
  obtain ⟨feeds, front, gap, close, tail, hfeeds, hfront, hgap, hclose, -, htext⟩ := hs
  have hblank : Blank feeds := by
    refine List.all_eq_true.mpr fun c hc => ?_
    rw [beq_iff_eq.mp (List.all_eq_true.mp hfeeds c hc)]
    decide
  exact read?_layout h hblank hfront hgap hclose htext

end AccessGraph.Sql
