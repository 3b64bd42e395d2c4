import AccessGraph.Proofs.Sql.Scanner
import AccessGraph.Proofs.Text.Digits
import AccessGraph.Naming

/-!
# Expressions

The expressions that rows are made of, as a type, with `Expr.text` to write and `Expr.ofChars?` to
read them; `ofChars?_text` says that reading gives back what was written.

`readLiteral` reads one string literal off the front of a text.  It stops at the first quote that
is not doubled, so `readLiteral_append` asks that the literal is not followed by another quote.
-/

namespace AccessGraph.Sql

/-- An expression in a row. -/
inductive Expr where
  | null
  | literal (s : String)
  | jsonb (s : String)
  | integer (n : Int)
  | truth (b : Bool)
  | now
  /-- The subquery for the row of a table with a value in a column. -/
  | lookup (table column value : String)
  deriving DecidableEq, Repr

/-- The expression as it is written. -/
def Expr.text : Expr → String
  | .null => "NULL"
  | .literal s => Sql.literal s
  | .jsonb s => Sql.literal s ++ "::jsonb"
  | .integer n => Text.intText n
  | .truth b => Sql.bool b
  | .now => "NOW()"
  | .lookup table column value => Sql.lookup table column value

@[simp] theorem Expr.text_null : Expr.null.text = "NULL" := rfl

@[simp] theorem Expr.text_literal (s : String) : (Expr.literal s).text = Sql.literal s := rfl

@[simp] theorem Expr.text_integer (n : Int) : (Expr.integer n).text = Text.intText n := rfl

@[simp] theorem Expr.text_truth (b : Bool) : (Expr.truth b).text = Sql.bool b := rfl

@[simp] theorem Expr.text_now : Expr.now.text = "NOW()" := rfl

@[simp] theorem Expr.text_lookup (table column value : String) :
    (Expr.lookup table column value).text = Sql.lookup table column value := rfl

/-! ## String literals -/

/-- Reads the rest of a string literal behind its opening quote; tells the content and what
follows. -/
def literalRest : List Char → Option (List Char × List Char)
  | [] => none
  | '\x27' :: '\x27' :: cs => (literalRest cs).map fun (v, rest) => ('\x27' :: v, rest)
  | c :: cs =>
    if c = '\x27' then some ([], cs) else (literalRest cs).map fun (v, rest) => (c :: v, rest)

/-- Reads a string literal off the front; tells its content and what follows. -/
def readLiteral : List Char → Option (List Char × List Char)
  | '\x27' :: cs => literalRest cs
  | _ => none

/-- An escaped text is read up to its closing quote, whatever quotes are in it. -/
theorem literalRest_append (v rest : List Char) (hr : rest.head? ≠ some '\x27') :
    literalRest (escapeChars v ++ '\x27' :: rest) = some (v, rest) := by
  -- The cases are those of `scan_literal_body`: a quote of the content comes in twos.
  induction v with
  | nil =>
    cases rest with
    | nil => simp [escapeChars, literalRest]
    | cons d ds =>
      have hd : d ≠ '\x27' := by simpa using hr
      simp [escapeChars, literalRest, hd]
  | cons c cs ih =>
    by_cases hc : c = '\x27'
    · simp [escapeChars, hc, literalRest, ih]
    · simp [escapeChars, hc, literalRest, ih]

/-- A literal reads back as its content, in front of anything but another quote. -/
theorem readLiteral_append (v rest : List Char) (hr : rest.head? ≠ some '\x27') :
    readLiteral (literalChars v ++ rest) = some (v, rest) := by
  simp only [literalChars, List.cons_append, List.append_assoc, List.nil_append, readLiteral]
  exact literalRest_append v rest hr

/-! ## Names -/

/-- Whether a character may stand in the qualified name of a table, or of a column. -/
def isNameChar (c : Char) : Bool := isIdentifierStart c || c.isDigit || c = '.' || c = '\n'

/-- Text of characters that names are made of. -/
def IsName (s : String) : Prop := s.toList.all isNameChar = true

/-- The characters of names mean nothing to the scanner. -/
theorem isInert_of_isNameChar {c : Char} (h : isNameChar c = true) : isInert c = true :=
  isInert_of (by decide) (by decide) (by decide) h

/-- A name means nothing to the scanner. -/
theorem IsName.inert {s : String} (h : IsName s) : s.toList.all isInert = true :=
  List.all_eq_true.mpr fun c hc => isInert_of_isNameChar (List.all_eq_true.mp h c hc)

/-- No character of a name is one that cannot stand in names. -/
private theorem IsName.all_ne {s : String} (h : IsName s) {d : Char} (hd : isNameChar d = false) :
    s.toList.all (· != d) = true := by
  rw [List.all_eq_true]
  intro c hc
  rw [bne_iff_ne]
  intro heq
  subst heq
  rw [List.all_eq_true.mp h c hc] at hd
  exact absurd hd (by decide)

/-! ## Reading -/

/-- What follows the given text, if that stands in front. -/
def after? (front cs : List Char) : Option (List Char) :=
  if front.isPrefixOf cs then some (cs.drop front.length) else none

/-- What follows a text that stands in front. -/
@[simp] theorem after?_append (front rest : List Char) :
    after? front (front ++ rest) = some rest := by
  simp [after?]

/-- A literal with what follows it, as an expression. -/
def ofLiteral? : List Char × List Char → Option Expr
  | (v, rest) =>
    if rest = [] then some (.literal (String.ofList v))
    else if rest = "::jsonb".toList then some (.jsonb (String.ofList v))
    else none

/-- Reads a name up to a space. -/
def takeName (cs : List Char) : String × List Char :=
  (String.ofList (cs.takeWhile (· != ' ')), cs.dropWhile (· != ' '))

/-- Reads the subquery for a row. -/
def lookup? (cs : List Char) : Option Expr := do
  let cs ← after? "(SELECT id FROM ".toList cs
  let (table, cs) := takeName cs
  let cs ← after? " WHERE ".toList cs
  let (column, cs) := takeName cs
  let cs ← after? " = ".toList cs
  let (value, rest) ← readLiteral cs
  if rest = [')'] then some (.lookup table column (String.ofList value)) else none

/-- Reads an expression that is a word or a number. -/
def word? (cs : List Char) : Option Expr :=
  if cs = ['N', 'U', 'L', 'L'] then some .null
  else if cs = ['t', 'r', 'u', 'e'] then some (.truth true)
  else if cs = ['f', 'a', 'l', 's', 'e'] then some (.truth false)
  else if cs = ['N', 'O', 'W', '(', ')'] then some .now
  else (Text.readInteger cs).map .integer

/-- Reads an expression. -/
def Expr.ofChars? (cs : List Char) : Option Expr :=
  match cs with
  | '\x27' :: _ => (readLiteral cs).bind ofLiteral?
  | '(' :: _ => lookup? cs
  | _ => word? cs

/-- The names in an expression are names. -/
def Expr.WellNamed : Expr → Prop
  | .lookup table column _ => IsName table ∧ IsName column
  | _ => True

/-- A name is read up to the space behind it. -/
theorem takeName_append {s : String} (h : IsName s) {t : List Char} (ht : t.head? = some ' ') :
    takeName (s.toList ++ t) = (s, t) := by
  obtain ⟨cs, rfl⟩ := List.head?_eq_some_iff.mp ht
  have hne := List.all_eq_true.mp (h.all_ne (d := ' ') (by decide))
  have htake : (s.toList ++ ' ' :: cs).takeWhile (· != ' ') = s.toList := by
    rw [List.takeWhile_append_of_pos hne]
    simp
  have hdrop : (s.toList ++ ' ' :: cs).dropWhile (· != ' ') = ' ' :: cs := by
    rw [List.dropWhile_append_of_pos hne]
    simp
  rw [takeName, htake, hdrop, String.ofList_toList]

/-- A literal is read as one. -/
private theorem ofChars?_literal (v rest : List Char) (hr : rest.head? ≠ some '\x27') :
    Expr.ofChars? (literalChars v ++ rest) = ofLiteral? (v, rest) := by
  have h := readLiteral_append v rest hr
  rw [literalChars, List.cons_append] at h ⊢
  rw [Expr.ofChars?, h, Option.bind_some]

/-- Digits, behind a sign or not, read as an integer. -/
private theorem ofChars?_intDigits (n : Int) :
    Expr.ofChars? (Text.intDigits n) = some (.integer n) := by
  have hread := Text.readInteger_intDigits n
  -- The first character tells the integer from a literal, a subquery and all of the words.
  have hhead : ∃ c cs, Text.intDigits n = c :: cs ∧ (c = '-' ∨ c.isDigit = true) := by
    cases n with
    | ofNat n =>
      obtain ⟨c, cs, h⟩ := List.exists_cons_of_ne_nil (Text.natDigits_ne_nil n)
      refine ⟨c, cs, h, .inr (Text.isDigit_of_mem_natDigits (n := n) ?_)⟩
      rw [h]
      exact List.mem_cons_self
    | negSucc n => exact ⟨'-', _, rfl, .inl rfl⟩
  obtain ⟨c, cs, h, hc⟩ := hhead
  rw [h] at hread ⊢
  have hne : ∀ d : Char, d ≠ '-' → d.isDigit = false → c ≠ d := by
    rintro d hd hd' rfl
    rcases hc with hc | hc
    · exact hd hc
    · rw [hc] at hd'
      exact absurd hd' (by decide)
  have hword : word? (c :: cs) = some (.integer n) := by
    unfold word?
    rw [if_neg, if_neg, if_neg, if_neg, hread, Option.map_some]
    all_goals intro heq
    all_goals exact absurd (List.cons.inj heq).1 (hne _ (by decide) (by decide))
  unfold Expr.ofChars?
  split
  · next heq => exact absurd (List.cons.inj heq).1 (hne '\x27' (by decide) (by decide))
  · next heq => exact absurd (List.cons.inj heq).1 (hne '(' (by decide) (by decide))
  · exact hword

/-- The characters of a look-up, part by part. -/
theorem toList_lookup (table column value : String) :
    (Sql.lookup table column value).toList
      = "(SELECT id FROM ".toList ++ (table.toList ++ (" WHERE ".toList ++ (column.toList
        ++ (" = ".toList ++ (literalChars value.toList ++ [')']))))) := by
  have hend : ")".toList = [')'] := by simp
  -- `unfold`, because the equation of the definition is too slow to derive.
  unfold Sql.lookup
  simp only [String.toList_append, toList_literal, List.append_assoc, hend]

/-- The subquery for a row reads back, whatever the value it asks for. -/
private theorem lookup?_text {table column : String} (ht : IsName table) (hc : IsName column)
    (value : String) :
    lookup? (Sql.lookup table column value).toList = some (.lookup table column value) := by
  -- Names end at the next space; the value ends at its closing quote, whatever it holds.
  have hread : readLiteral (literalChars value.toList ++ [')']) = some (value.toList, [')']) :=
    readLiteral_append _ _ (by decide)
  rw [toList_lookup]
  simp only [lookup?, after?_append, takeName_append ht (t := " WHERE ".toList ++ _) (by simp),
    takeName_append hc (t := " = ".toList ++ _) (by simp), hread, Option.bind_eq_bind,
    Option.bind_some, ↓reduceIte, String.ofList_toList]

/-- An expression reads back as what it was written from. -/
theorem ofChars?_text {e : Expr} (h : e.WellNamed) :
    Expr.ofChars? e.text.toList = some e := by
  cases e with
  | null => simp [Expr.text, Expr.ofChars?, word?]
  | literal s =>
    have hread := ofChars?_literal s.toList [] (by decide)
    rw [List.append_nil] at hread
    rw [Expr.text, toList_literal, hread]
    simp [ofLiteral?]
  | jsonb s =>
    have hread := ofChars?_literal s.toList "::jsonb".toList (by decide)
    rw [Expr.text, String.toList_append, toList_literal, hread]
    simp [ofLiteral?]
  | integer n =>
    have hread := ofChars?_intDigits n
    rwa [Expr.text, Text.intText, String.toList_ofList]
  | truth b => cases b <;> simp [Expr.text, Sql.bool, Expr.ofChars?, word?]
  | now => simp [Expr.text, Expr.ofChars?, word?]
  | lookup table column value =>
    have hread := lookup?_text h.1 h.2 value
    -- The opening parenthesis selects the reader of subqueries.
    obtain ⟨cs, hcs⟩ : ∃ cs, (Sql.lookup table column value).toList = '(' :: cs := by
      rw [toList_lookup]
      simp
    rw [hcs] at hread
    rw [Expr.text, hcs, Expr.ofChars?, hread]

end AccessGraph.Sql
