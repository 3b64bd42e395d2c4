import AccessGraph.Proofs.Lists
import AccessGraph.Sql.Literal
import AccessGraph.Text.Blank

/-!
# Scanning SQL text

A database reads a script character by character, in one of three modes: plain text, a string
literal, or a comment.  `scan` marks every character with the mode it belongs to, and
`Scan.statements` cuts the marked text behind every semicolon that stands in plain text.

Text is `Quiet` when it is made of plain characters and whole literals.  `scan_quiet` says that the
scanner passes such text without ending a statement or opening a comment, and comes back to plain
mode.  `statements_scan_lines` lifts that to a whole script of comments and statements, one after
another.
-/

namespace AccessGraph.Sql

/-- What a character of a script belongs to. -/
inductive Mode where
  | plain | literal | comment
  deriving DecidableEq, Repr

/-- Text as scanned: the characters, each with what it belongs to, and the mode at the end. -/
structure Scan where
  marks : List (Mode × Char)
  final : Mode

/-- Adds a marked character in front. -/
def Scan.cons (m : Mode) (c : Char) (s : Scan) : Scan := ⟨(m, c) :: s.marks, s.final⟩

/-- Adds marked characters in front. -/
def Scan.prepend (l : List (Mode × Char)) (s : Scan) : Scan := ⟨l ++ s.marks, s.final⟩

/-- Scans text from a mode on.  A single quote opens a literal; inside one, two quotes stand for
one and a lone quote closes it.  Two dashes in plain text open a comment, which the end of the line
closes. -/
def scan : Mode → List Char → Scan
  | m, [] => ⟨[], m⟩
  | .plain, c :: cs =>
    if c = '\x27' then (scan .literal cs).cons .literal c
    else if c = '-' ∧ cs.head? = some '-' then (scan .comment cs).cons .comment c
    else (scan .plain cs).cons .plain c
  -- a doubled quote is one quote of the text, not its end
  | .literal, '\x27' :: '\x27' :: cs =>
    ((scan .literal cs).cons .literal '\x27').cons .literal '\x27'
  | .literal, c :: cs =>
    if c = '\x27' then (scan .plain cs).cons .literal c else (scan .literal cs).cons .literal c
  | .comment, c :: cs =>
    if c = '\n' then (scan .plain cs).cons .plain c else (scan .comment cs).cons .comment c

/-- Cuts marked text behind every semicolon in plain text; the last piece is what is left over. -/
def cut : List (Mode × Char) → List (List (Mode × Char))
  | [] => [[]]
  | x :: xs =>
    if x = (.plain, ';') then [x] :: cut xs
    else match cut xs with
      | [] => [[x]]
      | piece :: pieces => (x :: piece) :: pieces

/-- Characters without the blank ones at either end. -/
def trim (cs : List Char) : List Char := Text.stripChars Text.isBlankChar cs

/-- The text of a piece, without its comments and without blanks at either end. -/
def pieceText (piece : List (Mode × Char)) : List Char :=
  trim ((piece.filter fun x => x.1 != .comment).map Prod.snd)

/-- The statements of marked text: its pieces, except for an empty rest. -/
def statementsOf (marks : List (Mode × Char)) : List (List Char) :=
  ((cut marks).map pieceText).filter fun cs => !cs.isEmpty

/-- The statements of scanned text. -/
def Scan.statements (s : Scan) : List String := (statementsOf s.marks).map String.ofList

/-- The characters of a string literal. -/
def literalChars (cs : List Char) : List Char := '\x27' :: (escapeChars cs ++ ['\x27'])

@[simp] theorem toList_literal (s : String) : (literal s).toList = literalChars s.toList := by
  simp [literal, literalChars]

/-! ## Quiet text -/

/-- Whether a character means nothing to the scanner in plain text. -/
def isInert (c : Char) : Bool := c != '\x27' && c != ';' && c != '-'

/-- Text of plain characters, single dashes and whole literals. -/
inductive Quiet : List Char → Prop
  | nil : Quiet []
  | inert {c : Char} {t : List Char} : isInert c = true → Quiet t → Quiet (c :: t)
  | dash {t : List Char} : t.head? ≠ some '-' → Quiet t → Quiet ('-' :: t)
  | literal (v : List Char) {t : List Char} :
    t.head? ≠ some '\x27' → Quiet t → Quiet (literalChars v ++ t)

/-- Characters that satisfy what no special character does mean nothing to the scanner. -/
theorem isInert_of {p : Char → Bool} (hquote : p '\x27' = false) (hsemicolon : p ';' = false)
    (hdash : p '-' = false) {c : Char} (h : p c = true) : isInert c = true := by
  -- `p` tells `c` apart from each of the three
  have hne : ∀ {d : Char}, p d = false → c ≠ d := fun hd =>
    ne_of_apply_ne p (by simp [h, hd])
  simp only [isInert, Bool.and_eq_true, bne_iff_ne]
  exact ⟨⟨hne hquote, hne hsemicolon⟩, hne hdash⟩

/-- What may follow quiet text without changing how it is read. -/
def Follows (rest : List Char) : Prop := rest.head? ≠ some '\x27' ∧ rest.head? ≠ some '-'

theorem follows_nil : Follows [] := by simp [Follows]

/-- Text that starts with a character without a meaning may follow quiet text. -/
theorem follows_cons {c : Char} (h : isInert c = true) (cs : List Char) : Follows (c :: cs) := by
  simp only [isInert, Bool.and_eq_true, bne_iff_ne, ne_eq] at h
  simp [Follows, h]

theorem follows_of_inert {cs : List Char} (h : cs.all isInert = true) : Follows cs := by
  cases cs with
  | nil => exact follows_nil
  | cons c cs =>
    rw [List.all_cons, Bool.and_eq_true] at h
    exact follows_cons h.1 cs

/-- Quiet text stays quiet behind characters without a meaning. -/
theorem quiet_inert_append {a b : List Char} (ha : a.all isInert = true) (hb : Quiet b) :
    Quiet (a ++ b) := by
  induction a with
  | nil => exact hb
  | cons c cs ih =>
    simp only [List.all_cons, Bool.and_eq_true] at ha
    exact .inert ha.1 (ih ha.2)

theorem quiet_of_inert {a : List Char} (ha : a.all isInert = true) : Quiet a := by
  have h := quiet_inert_append ha .nil
  rwa [List.append_nil] at h

/-- A literal is quiet, whatever is in it. -/
theorem quiet_literal (v : List Char) : Quiet (literalChars v) := by
  have h := Quiet.literal v (t := []) (by simp) .nil
  rwa [List.append_nil] at h

/-- Quiet texts one behind the other, where the second may follow. -/
theorem quiet_append {a b : List Char} (ha : Quiet a) (hb : Quiet b) (hf : Follows b) :
    Quiet (a ++ b) := by
  induction ha with
  | nil => exact hb
  | inert hc _ ih => exact .inert hc ih
  | dash ht _ ih => exact .dash (head?_append_ne ht hf.2) ih
  | literal v ht _ ih =>
    rw [List.append_assoc]
    exact .literal v (head?_append_ne ht hf.1) ih

/-- A mark that neither ends a statement nor belongs to a comment. -/
def IsBody (x : Mode × Char) : Prop := x ≠ (.plain, ';') ∧ x.1 ≠ .comment

@[simp] theorem prepend_nil (s : Scan) : s.prepend [] = s := rfl

@[simp] theorem prepend_cons (m : Mode) (c : Char) (l : List (Mode × Char)) (s : Scan) :
    s.prepend ((m, c) :: l) = (s.prepend l).cons m c := rfl

theorem prepend_append (l m : List (Mode × Char)) (s : Scan) :
    s.prepend (l ++ m) = (s.prepend m).prepend l := by
  simp [Scan.prepend]

/-- From inside a literal, its content and its closing quote are passed as literal text. -/
theorem scan_literal_body (v rest : List Char) (hr : rest.head? ≠ some '\x27') :
    scan .literal (escapeChars v ++ '\x27' :: rest)
      = (scan .plain rest).prepend ((escapeChars v ++ ['\x27']).map (Prod.mk .literal)) := by
  induction v with
  | nil =>
    -- The closing quote stands alone only because no quote follows the literal.
    cases rest with
    | nil => simp [escapeChars, scan]
    | cons d ds =>
      have hd : d ≠ '\x27' := by simpa using hr
      simp [escapeChars, scan, hd]
  | cons c cs ih =>
    -- A quote is written twice, and the scanner passes both without leaving the literal.
    by_cases hc : c = '\x27'
    · simp [escapeChars, hc, scan, ih]
    · simp [escapeChars, hc, scan, ih]

/-- A literal is scanned as one, whatever quotes, semicolons and dashes are in it. -/
theorem scan_literal (v rest : List Char) (hr : rest.head? ≠ some '\x27') :
    scan .plain (literalChars v ++ rest)
      = (scan .plain rest).prepend ((literalChars v).map (Prod.mk .literal)) := by
  have h := scan_literal_body v rest hr
  simp only [literalChars, List.cons_append, List.append_assoc, List.nil_append, scan,
    ↓reduceIte] at h ⊢
  rw [h]
  simp

/-- The scanner passes quiet text without ending a statement and comes back to plain mode. -/
theorem scan_quiet {t : List Char} (ht : Quiet t) (rest : List Char) (hr : Follows rest) :
    ∃ l, l.map Prod.snd = t ∧ (∀ x ∈ l, IsBody x) ∧
      scan .plain (t ++ rest) = (scan .plain rest).prepend l := by
  -- Induction on how the text is made: each case starts and ends in plain mode.
  induction ht with
  | nil => exact ⟨[], rfl, by simp, rfl⟩
  | @inert c t hc _ ih =>
    obtain ⟨l, hl, hb, hs⟩ := ih
    simp only [isInert, Bool.and_eq_true, bne_iff_ne, ne_eq] at hc
    refine ⟨(.plain, c) :: l, by simp [hl], ?_, ?_⟩
    · simpa [IsBody, hc] using hb
    · simp [scan, hc, hs]
  | @dash t ht _ ih =>
    obtain ⟨l, hl, hb, hs⟩ := ih
    refine ⟨(.plain, '-') :: l, by simp [hl], ?_, ?_⟩
    · simpa [IsBody] using hb
    · -- A second dash could only be the first character of what follows.
      have hd : ¬('-' = '-' ∧ (t ++ rest).head? = some '-') :=
        fun h => head?_append_ne ht hr.2 h.2
      rw [List.cons_append, scan, if_neg (by decide), if_neg hd, hs]
      rfl
  | literal v ht _ ih =>
    obtain ⟨l, hl, hb, hs⟩ := ih
    refine ⟨(literalChars v).map (Prod.mk .literal) ++ l, ?_, ?_, ?_⟩
    · simp [hl, Function.comp_def]
    · intro x hx
      rcases List.mem_append.mp hx with hx | hx
      · obtain ⟨c, _, rfl⟩ := List.mem_map.mp hx
        simp [IsBody]
      · exact hb x hx
    · rw [List.append_assoc, scan_literal v _ (head?_append_ne ht hr.1), hs, prepend_append]

/-! ## Statements one after another -/

/-- A comment of one line. -/
def IsComment (t : List Char) : Prop := ∃ body, t = '-' :: '-' :: body ∧ '\n' ∉ body

/-- A statement: quiet text behind a first character that is neither blank nor special, up to a
semicolon. -/
def IsStatement (t : List Char) : Prop :=
  ∃ c body, t = c :: body ++ [';'] ∧ Text.isBlankChar c = false ∧ isInert c = true ∧ Quiet body

/-- A statement behind line feeds, or behind nothing. -/
def IsSpaced (s : List Char) : Prop :=
  ∃ feeds t, s = feeds ++ t ∧ feeds.all (· == '\n') = true ∧ IsStatement t

/-- A mark that adds nothing to the text of a piece: a comment or a blank. -/
def IsIdle (x : Mode × Char) : Prop := x.1 = .comment ∨ Text.isBlankChar x.2 = true

/-- What adds nothing to a piece does not end it. -/
private theorem IsIdle.ne_end {x : Mode × Char} (h : IsIdle x) : x ≠ (.plain, ';') := by
  intro heq
  subst heq
  rcases h with h | h
  · exact absurd h (by decide)
  · exact absurd h (by decide)

/-- Marked text has at least one piece, which may be empty. -/
private theorem cut_ne_nil (l : List (Mode × Char)) : cut l ≠ [] := by
  cases l with
  | nil => simp [cut]
  | cons x xs =>
    rw [cut]
    split
    · simp
    · split <;> simp

/-- Marks that end no statement go in front of the first piece. -/
theorem cut_append {l : List (Mode × Char)} (hl : ∀ x ∈ l, x ≠ (.plain, ';'))
    (m : List (Mode × Char)) :
    ∃ piece pieces, cut m = piece :: pieces ∧ cut (l ++ m) = (l ++ piece) :: pieces := by
  -- Induction on the marks; cutting always leaves a first piece to put them in front of.
  induction l with
  | nil =>
    obtain ⟨piece, pieces, h⟩ := List.exists_cons_of_ne_nil (cut_ne_nil m)
    exact ⟨piece, pieces, h, h⟩
  | cons x xs ih =>
    obtain ⟨piece, pieces, hm, hc⟩ := ih fun y hy => hl y (List.mem_cons_of_mem x hy)
    refine ⟨piece, pieces, hm, ?_⟩
    rw [List.cons_append, cut, if_neg (hl x List.mem_cons_self), hc]
    rfl

/-- Characters that are stripped do not show in front. -/
theorem stripChars_append {p : Char → Bool} {a : List Char} (ha : a.all p = true)
    (b : List Char) : Text.stripChars p (a ++ b) = Text.stripChars p b := by
  rw [Text.stripChars, List.dropWhile_append_of_pos (List.all_eq_true.mp ha)]
  rfl

/-- Text whose first and last characters are kept is kept as it is. -/
private theorem stripChars_of_kept {p : Char → Bool} {c d : Char} (cs : List Char)
    (hc : p c = false)
    (hd : p d = false) : Text.stripChars p (c :: cs ++ [d]) = c :: cs ++ [d] := by
  simp [Text.stripChars, hc, hd]

/-- The line feeds in front of a statement are the only blanks around it. -/
theorem IsSpaced.strip {s : List Char} (h : IsSpaced s) :
    ∃ t, IsStatement t ∧ Text.stripChars (· == '\n') s = t ∧ trim s = t := by
  obtain ⟨feeds, t, rfl, hfeeds, ht⟩ := h
  obtain ⟨c, body, rfl, hc, hi, hq⟩ := ht
  -- Line feeds are blank, so both ways of stripping take them away.
  have hblank : feeds.all Text.isBlankChar = true := by
    rw [List.all_eq_true] at hfeeds ⊢
    intro x hx
    rw [beq_iff_eq.mp (hfeeds x hx)]
    decide
  have hne : (c == '\n') = false := by
    rw [beq_eq_false_iff_ne]
    intro heq
    subst heq
    exact absurd hc (by decide)
  refine ⟨_, ⟨c, body, rfl, hc, hi, hq⟩, ?_, ?_⟩
  · rw [stripChars_append hfeeds]
    exact stripChars_of_kept body hne (by decide)
  · rw [trim, stripChars_append hblank]
    exact stripChars_of_kept body hc (by decide)

/-- Idle marks in front do not show in the text of a piece. -/
private theorem pieceText_append_of_idle {l : List (Mode × Char)} (hl : ∀ x ∈ l, IsIdle x)
    (piece : List (Mode × Char)) : pieceText (l ++ piece) = pieceText piece := by
  rw [pieceText, List.filter_append, List.map_append]
  apply stripChars_append
  rw [List.all_eq_true]
  intro c hc
  obtain ⟨x, hx, rfl⟩ := List.mem_map.mp hc
  obtain ⟨hx, hne⟩ := List.mem_filter.mp hx
  rcases hl x hx with h | h
  · simp [h] at hne
  · exact h

/-- Idle marks in front change no statement. -/
private theorem statementsOf_append_of_idle {l : List (Mode × Char)} (hl : ∀ x ∈ l, IsIdle x)
    (m : List (Mode × Char)) : statementsOf (l ++ m) = statementsOf m := by
  obtain ⟨piece, pieces, hm, hc⟩ := cut_append (fun x hx => (hl x hx).ne_end) m
  simp only [statementsOf, hm, hc, List.map_cons, pieceText_append_of_idle hl]

/-- A statement in front is the first one. -/
private theorem statementsOf_append_of_body {l : List (Mode × Char)} (hl : ∀ x ∈ l, IsBody x)
    {c : Char} {cs : List Char} (hs : l.map Prod.snd = c :: cs) (hc : Text.isBlankChar c = false)
    (m : List (Mode × Char)) :
    statementsOf (l ++ (.plain, ';') :: m) = (c :: cs ++ [';']) :: statementsOf m := by
  obtain ⟨piece, pieces, hm, hcut⟩ := cut_append (fun x hx => (hl x hx).1) ((.plain, ';') :: m)
  -- The semicolon ends the first piece, which is all of `l` and the semicolon.
  have hend : cut ((.plain, ';') :: m) = [(.plain, ';')] :: cut m := by rw [cut, if_pos rfl]
  obtain ⟨rfl, rfl⟩ := List.cons.inj (hend.symm.trans hm)
  have hkeep : l.filter (fun x => x.1 != .comment) = l :=
    List.filter_eq_self.mpr fun x hx => by simpa using (hl x hx).2
  have htext : pieceText (l ++ [(.plain, ';')]) = c :: cs ++ [';'] := by
    rw [pieceText, List.filter_append, hkeep, List.map_append, hs]
    exact stripChars_of_kept cs hc (by decide)
  simp [statementsOf, hcut, htext]

/-- From inside a comment, the rest of its line is passed as a comment. -/
private theorem scan_comment_body {body : List Char} (hb : '\n' ∉ body) (rest : List Char) :
    scan .comment (body ++ '\n' :: rest)
      = (scan .plain rest).prepend (body.map (Prod.mk .comment) ++ [(.plain, '\n')]) := by
  induction body with
  | nil => simp [scan]
  | cons c cs ih =>
    simp only [List.mem_cons, not_or] at hb
    simp [scan, ih hb.2, Ne.symm hb.1]

/-- A comment and the end of its line leave plain mode and change no statement. -/
private theorem scan_comment_line {t : List Char} (ht : IsComment t) (rest : List Char) :
    ∃ l, (∀ x ∈ l, IsIdle x) ∧
      scan .plain (t ++ '\n' :: rest) = (scan .plain rest).prepend l := by
  obtain ⟨body, rfl, hb⟩ := ht
  refine ⟨('-' :: '-' :: body).map (Prod.mk .comment) ++ [(.plain, '\n')], ?_, ?_⟩
  · -- the line is comment up to its line feed, which is plain and ends nothing
    intro x hx
    rcases List.mem_append.mp hx with hx | hx
    · obtain ⟨c, _, rfl⟩ := List.mem_map.mp hx
      exact .inl rfl
    · obtain rfl := List.mem_singleton.mp hx
      exact .inr (by decide)
  · have h := scan_comment_body hb rest
    simp [scan, h]

/-- A statement and the end of its line leave plain mode. -/
private theorem scan_statement_line {t : List Char} (ht : IsStatement t) (rest : List Char) :
    (scan .plain (t ++ '\n' :: rest)).final = (scan .plain rest).final ∧
      statementsOf (scan .plain (t ++ '\n' :: rest)).marks
        = t :: statementsOf (scan .plain rest).marks := by
  obtain ⟨c, body, rfl, hc, hi, hq⟩ := ht
  -- All but the semicolon is quiet; the semicolon and the line feed are scanned on their own.
  obtain ⟨l, hl, hb, hs⟩ := scan_quiet (.inert hi hq) (';' :: '\n' :: rest) (by simp [Follows])
  have hend : scan .plain (';' :: '\n' :: rest)
      = (scan .plain rest).prepend [(.plain, ';'), (.plain, '\n')] := by simp [scan]
  have hscan : scan .plain (c :: body ++ [';'] ++ '\n' :: rest)
      = (scan .plain rest).prepend (l ++ [(.plain, ';'), (.plain, '\n')]) := by
    rw [prepend_append, ← hend, ← hs]
    simp
  rw [hscan]
  refine ⟨rfl, ?_⟩
  simp only [Scan.prepend, List.append_assoc, List.cons_append, List.nil_append]
  rw [statementsOf_append_of_body hb hl hc]
  congr 1
  exact statementsOf_append_of_idle (l := [(.plain, '\n')])
    (by simp [IsIdle, show Text.isBlankChar '\n' = true by decide]) _

/-- Scanning comments and statements, one a line, ends in plain mode and finds the statements in
their order. -/
theorem statements_scan_lines (ts : List (List Char))
    (hts : ∀ t ∈ ts, IsComment t ∨ IsStatement t) :
    (scan .plain (ts.flatMap (· ++ ['\n']))).final = .plain ∧
      statementsOf (scan .plain (ts.flatMap (· ++ ['\n']))).marks
        = ts.filter fun t => t.head? != some '-' := by
  -- Every line leaves plain mode, so the lines behind it are scanned as if they stood alone.
  induction ts with
  | nil => simp [scan, statementsOf, cut, pieceText, trim, Text.stripChars]
  | cons t ts ih =>
    obtain ⟨hf, hm⟩ := ih fun u hu => hts u (List.mem_cons_of_mem t hu)
    simp only [List.flatMap_cons, List.append_assoc, List.cons_append, List.nil_append]
    rcases hts t List.mem_cons_self with ht | ht
    · obtain ⟨l, hl, hs⟩ := scan_comment_line ht (ts.flatMap (· ++ ['\n']))
      obtain ⟨body, rfl, _⟩ := ht
      rw [hs]
      exact ⟨hf, by simpa [Scan.prepend, statementsOf_append_of_idle hl] using hm⟩
    · obtain ⟨hf', hm'⟩ := scan_statement_line ht (ts.flatMap (· ++ ['\n']))
      obtain ⟨c, body, rfl, -, hi, -⟩ := ht
      -- A statement is told from a comment by its first character.
      have hne : ((c :: body ++ [';']).head? != some '-') = true := by
        simp only [List.cons_append, List.head?_cons, bne_iff_ne, ne_eq, Option.some.injEq]
        intro heq
        subst heq
        exact absurd hi (by decide)
      refine ⟨hf'.trans hf, ?_⟩
      rw [hm', hm, List.filter_cons, if_pos hne]

end AccessGraph.Sql
