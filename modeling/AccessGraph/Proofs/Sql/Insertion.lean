import AccessGraph.Proofs.Sql.Expression
import AccessGraph.Sql.Row

/-!
# Insertions

Reading an `INSERT` back: the table, the columns and the values, where both lists are split at the
commas that stand outside string literals and parentheses.  Text `Passes` when it neither splits
nor closes a list; `split_intercalate` says that a list of such texts, with blanks around its
commas, is split back into the texts.
-/

namespace AccessGraph.Sql

/-! ## Splitting lists -/

/-- A list as split: its parts, of which there is at least one, and what follows its end. -/
structure Parts where
  first : List Char
  others : List (List Char)
  rest : List Char

namespace Parts

/-- Adds text in front of the first part. -/
def prepend (t : List Char) (p : Parts) : Parts := { p with first := t ++ p.first }

/-- Adds a part in front. -/
def cons (t : List Char) (p : Parts) : Parts := ⟨t, p.first :: p.others, p.rest⟩

/-- The parts without blanks at either end. -/
def texts (p : Parts) : List (List Char) := (p.first :: p.others).map trim

@[simp] theorem prepend_nil (p : Parts) : p.prepend [] = p := rfl

private theorem prepend_prepend (a b : List Char) (p : Parts) :
    (p.prepend b).prepend a = p.prepend (a ++ b) := by
  simp [prepend]

end Parts

/-- Splits text at its commas, up to the parenthesis that closes it.  Commas inside parentheses or
string literals are text; a quote written twice closes its literal and opens the next one at once,
so it leaves everything in between where it is. -/
def split (depth : Nat) (quoted : Bool) : List Char → Option Parts
  | [] => none
  | c :: cs =>
    if quoted then (split depth (c != '\x27') cs).map (Parts.prepend [c])
    -- a quote opens text in which no bracket and no comma counts
    else if c = '\x27' then (split depth true cs).map (Parts.prepend [c])
    else if c = '(' then (split (depth + 1) false cs).map (Parts.prepend [c])
    else if c = ')' then
      -- the bracket that closes what was open at the start ends the reading
      match depth with
      | 0 => some ⟨[], [], cs⟩
      | depth + 1 => (split depth false cs).map (Parts.prepend [c])
    -- only a comma outside every bracket parts two columns
    else if c = ',' ∧ depth = 0 then (split 0 false cs).map (Parts.cons [])
    else (split depth false cs).map (Parts.prepend [c])

/-- Text that splits nothing and closes nothing. -/
def Passes (t : List Char) : Prop :=
  ∀ depth rest, split depth false (t ++ rest) = (split depth false rest).map (Parts.prepend t)

/-- Whether a character means nothing when lists are split. -/
def isPart (c : Char) : Bool := c != '\x27' && c != '(' && c != ')' && c != ','

/-- Characters that satisfy what no special character does mean nothing when lists are split. -/
theorem isPart_of {p : Char → Bool} (hquote : p '\x27' = false) (hopen : p '(' = false)
    (hclose : p ')' = false) (hcomma : p ',' = false) {c : Char} (h : p c = true) :
    isPart c = true := by
  -- `p` tells `c` apart from each of the four
  have hne : ∀ {d : Char}, p d = false → c ≠ d := fun hd =>
    ne_of_apply_ne p (by simp [h, hd])
  simp only [isPart, Bool.and_eq_true, bne_iff_ne]
  exact ⟨⟨⟨hne hquote, hne hopen⟩, hne hclose⟩, hne hcomma⟩

/-- Mapping twice over what has been split is mapping the text of both. -/
private theorem map_prepend_prepend (a b : List Char) (o : Option Parts) :
    (o.map (Parts.prepend b)).map (Parts.prepend a) = o.map (Parts.prepend (a ++ b)) := by
  cases o with
  | none => rfl
  | some p => rw [Option.map_some, Option.map_some, Option.map_some, Parts.prepend_prepend]

theorem passes_nil : Passes [] := by
  intro depth rest
  cases h : split depth false rest <;> simp [h]

/-- Texts that split nothing do not do so together. -/
theorem passes_append {a b : List Char} (ha : Passes a) (hb : Passes b) : Passes (a ++ b) := by
  intro depth rest
  rw [List.append_assoc, ha, hb, map_prepend_prepend]

/-- Characters without a meaning split nothing. -/
theorem passes_of_isPart {t : List Char} (ht : t.all isPart = true) : Passes t := by
  induction t with
  | nil => exact passes_nil
  | cons c cs ih =>
    rw [List.all_cons, Bool.and_eq_true] at ht
    have hc := ht.1
    simp only [isPart, Bool.and_eq_true, bne_iff_ne, ne_eq] at hc
    intro depth rest
    have h := ih ht.2 depth rest
    simp only [List.cons_append, split, hc, Bool.false_eq_true, ↓reduceIte, false_and, h]
    exact map_prepend_prepend [c] cs _

/-- From inside a literal, its content and its closing quote are text. -/
private theorem split_literal_body (v rest : List Char) (depth : Nat) :
    split depth true (escapeChars v ++ '\x27' :: rest)
      = (split depth false rest).map (Parts.prepend (escapeChars v ++ ['\x27'])) := by
  induction v with
  | nil => simp [escapeChars, split]
  | cons c cs ih =>
    by_cases hc : c = '\x27'
    · -- The first of two quotes closes the literal and the second opens it again.
      subst hc
      simp only [escapeChars, ↓reduceIte, List.cons_append, split, bne_self_eq_false,
        Bool.false_eq_true, ih, map_prepend_prepend]
      rfl
    · have hne : (c != '\x27') = true := by simpa using hc
      simp only [escapeChars, hc, ↓reduceIte, List.cons_append, split, hne, ih,
        map_prepend_prepend]
      rfl

/-- A literal splits nothing, whatever is in it. -/
theorem passes_literal (v : List Char) : Passes (literalChars v) := by
  intro depth rest
  have h := split_literal_body v rest depth
  simp only [literalChars, List.cons_append, List.append_assoc, List.nil_append, split,
    Bool.false_eq_true, ↓reduceIte, h]
  exact map_prepend_prepend ['\x27'] (escapeChars v ++ ['\x27']) _

/-- Text between parentheses is text, whatever depth it stands at. -/
theorem passes_parenthesized {t : List Char} (ht : Passes t) : Passes ('(' :: (t ++ [')'])) := by
  intro depth rest
  have hopen : split depth false ('(' :: (t ++ [')']) ++ rest)
      = (split (depth + 1) false (t ++ ')' :: rest)).map (Parts.prepend ['(']) := by
    simp [split]
  have hclose : split (depth + 1) false (')' :: rest)
      = (split depth false rest).map (Parts.prepend [')']) := by
    simp [split]
  rw [hopen, ht, hclose, map_prepend_prepend, map_prepend_prepend]
  rfl

/-! ## Trimming parts -/

/-- Text that starts and ends with no blank. -/
def HasEdges (t : List Char) : Prop :=
  (∃ c, t.head? = some c ∧ Text.isBlankChar c = false) ∧
    ∃ d, t.getLast? = some d ∧ Text.isBlankChar d = false

/-- Text of blanks only. -/
def Blank (t : List Char) : Prop := t.all Text.isBlankChar = true

instance (t : List Char) : Decidable (Blank t) :=
  inferInstanceAs (Decidable (t.all Text.isBlankChar = true))

/-- Blanks mean nothing to the scanner. -/
theorem Blank.inert {t : List Char} (h : Blank t) : t.all isInert = true := by
  rw [List.all_eq_true]
  intro c hc
  exact isInert_of (by decide) (by decide) (by decide) (List.all_eq_true.mp h c hc)

theorem Blank.passes {t : List Char} (h : Blank t) : Passes t := by
  apply passes_of_isPart
  rw [List.all_eq_true]
  intro c hc
  exact isPart_of (by decide) (by decide) (by decide) (by decide) (List.all_eq_true.mp h c hc)

/-- Blanks around text that starts and ends with none are trimmed away. -/
private theorem trim_of_hasEdges {a t b : List Char} (ha : Blank a) (ht : HasEdges t)
    (hb : Blank b) :
    trim (a ++ (t ++ b)) = t := by
  obtain ⟨⟨c, hc, hc'⟩, d, hd, hd'⟩ := ht
  obtain ⟨cs, rfl⟩ := List.head?_eq_some_iff.mp hc
  obtain ⟨ds, hds⟩ := List.getLast?_eq_some_iff.mp hd
  have hfront : (c :: cs ++ b).dropWhile Text.isBlankChar = c :: cs ++ b := by simp [hc']
  -- Seen from its end, the text starts with the blanks of `b` and then with `d`.
  have hback : ((c :: cs ++ b).reverse).dropWhile Text.isBlankChar = (c :: cs).reverse := by
    have hpos : ∀ x ∈ b.reverse, Text.isBlankChar x = true := fun x hx =>
      List.all_eq_true.mp hb x (List.mem_reverse.mp hx)
    rw [List.reverse_append, List.dropWhile_append_of_pos hpos, hds, List.reverse_append]
    simp [hd']
  rw [trim, stripChars_append ha, Text.stripChars, hfront, hback, List.reverse_reverse]

/-- A list of texts between separators and blanks is split back into the texts. -/
theorem split_intercalate {gap close : List Char} (hgap : Blank gap) (hclose : Blank close)
    (rest : List Char) {front : List Char} (hfront : Blank front) (t : List Char)
    (ts : List (List Char)) (h : ∀ u ∈ t :: ts, Passes u ∧ HasEdges u) :
    ∃ p, split 0 false (front ++ ((',' :: gap).intercalate (t :: ts) ++ (close ++ ')' :: rest)))
        = some p ∧ p.texts = t :: ts ∧ p.rest = rest := by
  obtain ⟨hp, he⟩ := h t List.mem_cons_self
  -- Induction on the texts behind the first one: what stands in front of a text is `front` for the
  -- first and the gap behind a comma for all others.
  induction ts generalizing t front with
  | nil =>
    have hall := passes_append hfront.passes (passes_append hp hclose.passes)
    have hend : split 0 false (')' :: rest) = some ⟨[], [], rest⟩ := by simp [split]
    refine ⟨⟨front ++ (t ++ close), [], rest⟩, ?_, ?_, rfl⟩
    · have hs := hall 0 (')' :: rest)
      rw [hend] at hs
      simpa [Parts.prepend] using hs
    · simp [Parts.texts, trim_of_hasEdges hfront he hclose]
  | cons u us ih =>
    have htail : ∀ w ∈ u :: us, Passes w ∧ HasEdges w := fun w hw =>
      h w (List.mem_cons_of_mem t hw)
    obtain ⟨p, hs, ht, hr⟩ := ih hgap u htail (htail u List.mem_cons_self).1
      (htail u List.mem_cons_self).2
    have hall := passes_append hfront.passes hp
    have hcomma : ∀ cs, split 0 false (',' :: cs) = (split 0 false cs).map (Parts.cons []) := by
      intro cs
      simp [split]
    refine ⟨(p.cons []).prepend (front ++ t), ?_, ?_, hr⟩
    · have htext : front ++ ((',' :: gap).intercalate (t :: u :: us) ++ (close ++ ')' :: rest))
          = (front ++ t) ++ ',' :: (gap ++ ((',' :: gap).intercalate (u :: us)
            ++ (close ++ ')' :: rest))) := by
        simp
      rw [htext, hall, hcomma, hs]
      rfl
    · have hfirst : trim (front ++ t) = t := by
        simpa using trim_of_hasEdges (b := []) hfront he rfl
      simp only [Parts.texts, Parts.prepend, Parts.cons, List.append_nil, List.map_cons,
        hfirst] at ht ⊢
      rw [ht]

/-! ## Reading -/

/-- What a statement inserts: a row of a table, by columns and the text of their values. -/
structure Insertion where
  table : String
  columns : List String
  values : List String
  deriving DecidableEq, Repr

/-- Reads what a statement inserts.  What follows the values is not looked at. -/
def Insertion.read? (s : String) : Option Insertion := do
  let cs ← after? "INSERT INTO ".toList (s.toList.dropWhile Text.isBlankChar)
  let (table, cs) := takeName cs
  let cs ← after? " (".toList cs
  let columns ← split 0 false cs
  let cs ← after? "VALUES (".toList (columns.rest.dropWhile Text.isBlankChar)
  let values ← split 0 false cs
  return ⟨table, columns.texts.map String.ofList, values.texts.map String.ofList⟩

end AccessGraph.Sql
