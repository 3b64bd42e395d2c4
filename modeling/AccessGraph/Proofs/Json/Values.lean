import AccessGraph.Proofs.Json.Keys
import AccessGraph.Proofs.Json.Groups
import AccessGraph.Proofs.Json.Numbers
import AccessGraph.Proofs.Json.Strings

/-!
# Values as JSON text

`Value.jsonForm` is the value that the JSON text of a value reads as (`Json.read?_encode`): data
that JSON has a form for comes back as it was, a tuple as a list, anything else as the text of its
display.  There is no such value for an infinity or for the value that is no number.

The induction is on the value, and what it carries is that a text reads as its form in front of
anything that does not go on with a number (`Json.reads_encode`).
-/

namespace AccessGraph

/-! ## What a text reads as -/

/-- Whether the number is neither an infinity nor the value that is no number. -/
def Double.isFinite : Double → Bool
  | .finite _ _ _ => true
  | _ => false

/-- The value that a binary64 number reads as; only finite ones have a JSON form. -/
def Double.jsonForm (x : Double) : Option Value :=
  if x.isFinite then Json.number? (Json.numberStyle.render x) else none

/-- The text that a key reads as. -/
def Json.keyString (k : Value) : String :=
  match Json.keyText k with
  | .ok cs => String.ofList cs
  | .error _ => ""

namespace Value

mutual

/-- The value that the JSON text of a value reads as, if it is one. -/
def jsonForm : Value → Option Value
  | .null => some .null
  | .bool b => some (.bool b)
  | .int n => some (.int n)
  | .double x => x.jsonForm
  | .text s => some (.text s)
  | .label l => some (.text l.text)
  | .list xs => (allSome (jsonForms xs)).map .list
  | .tuple xs => (allSome (jsonForms xs)).map .list
  | .dictionary es => (allSome (jsonFormsOfEntries es)).map .dictionary
  | v => some (.text v.display)

/-- What the texts of the members of a list read as. -/
def jsonForms : List Value → List (Option Value)
  | [] => []
  | x :: xs => jsonForm x :: jsonForms xs

/-- What the texts of the entries of a dictionary read as. -/
def jsonFormsOfEntries : List (Value × Value) → List (Option (Value × Value))
  | [] => []
  | (k, v) :: es =>
    (jsonForm v).map (fun w => (.text (Json.keyString k), w)) :: jsonFormsOfEntries es

end

end Value

namespace Json

/-! ## Reading values -/

/-- A space in front of a value is passed over. -/
private theorem value?_space (depth : Nat) (cs : List Char) :
    value? depth (' ' :: cs) = value? depth cs := by
  have hskip : skip (' ' :: cs) = skip cs := by simp [skip, isSpace]
  cases depth with
  | zero => rfl
  | succ depth => rw [value?, value?, hskip]

/-- A space in front of a dictionary's entry is passed over. -/
private theorem member?_space {value : List Char → Option (Value × List Char)} (cs : List Char) :
    member? value (' ' :: cs) = member? value cs := by
  have hskip : skip (' ' :: cs) = skip cs := by simp [skip, isSpace]
  rw [member?, member?, token?, token?, hskip]

/-- A member of an object reads as its key and what its value reads as. -/
private theorem reads_member {value : List Char → Option (Value × List Char)}
    (hspace : ∀ cs, value (' ' :: cs) = value cs) {p : List Char} {w : Option Value}
    (h : Reads value p w) (key : List Char) :
    Reads (member? value) (string key ++ ':' :: ' ' :: p)
      (w.map fun v => (.text (String.ofList key), v)) := by
  intro rest hrest
  have hquote : isSpace '\x22' = false := by decide
  have hcolon : isSpace ':' = false := by decide
  -- The key ends at its quote, and the value behind the colon and the space.
  have htext := text?_flatMap_escapeChar key (':' :: ' ' :: (p ++ rest))
  have hvalue := h rest hrest
  simp only [string, List.cons_append, List.append_assoc, List.nil_append, member?,
    token?_self hquote, token?_self hcolon, htext, hspace, hvalue, Option.bind_eq_bind,
    Option.bind_some]
  cases w <;> rfl

/-- A string is read back as its text. -/
theorem reads_text (depth : Nat) (s : String) :
    Reads (value? (depth + 1)) (string s.toList) (some (.text s)) := by
  intro rest _
  have htext := text?_flatMap_escapeChar s.toList rest
  have hskip : ∀ t, skip ('\x22' :: t) = '\x22' :: t := fun t => by simp [skip, isSpace]
  rw [String.ofList_toList] at htext
  simp only [string, List.cons_append, List.append_assoc, List.nil_append, value?, hskip, htext,
    Option.map_some]

/-- What starts with a character of a number is read as a name or a number. -/
private theorem value?_number {c : Char} (hc : isNumberChar c = true) (depth : Nat)
    (cs : List Char) :
    value? (depth + 1) (c :: cs)
      = (number? ((c :: cs).takeWhile isNumberChar)).map
          fun v => (v, (c :: cs).dropWhile isNumberChar) := by
  -- A character of numbers is none of those that start another value.
  have hne : ∀ d, isNumberChar d = false → c ≠ d := by
    rintro d hd rfl
    simp [hc] at hd
  have hspace : isSpace c = false := by
    simp [isSpace, hne ' ' (by decide), hne '\t' (by decide), hne '\n' (by decide),
      hne '\r' (by decide)]
  have hskip : skip (c :: cs) = c :: cs := by simp [skip, hspace]
  have hvalue : value? (depth + 1) (c :: cs) = scalar? (c :: cs) := by
    simp [value?, hskip, hne '\x22' (by decide), hne '[' (by decide), hne '\x7b' (by decide)]
  have hn := hne 'n' (by decide)
  have ht := hne 't' (by decide)
  have hf := hne 'f' (by decide)
  rw [hvalue]
  simp [scalar?, hn, ht, hf]

/-- What is written in characters of numbers is read up to its end as a number. -/
theorem reads_number {cs : List Char} {v : Value} (h : number? cs = some v)
    (hchars : ∀ c ∈ cs, isNumberChar c = true) (depth : Nat) :
    Reads (value? (depth + 1)) cs (some v) := by
  intro rest hrest
  have hspan := span_append hchars hrest
  cases cs with
  | nil => simp [number?, minus, isWhole] at h
  | cons c cs =>
    rw [List.cons_append] at hspan
    rw [List.cons_append, value?_number (hchars c List.mem_cons_self), hspan.1, hspan.2, h]

/-- Only finite binary64 numbers are read. -/
theorem reads_double (x : Double) (depth : Nat) :
    Reads (value? (depth + 1)) (numberStyle.render x) x.jsonForm := by
  cases x with
  | finite negative m e =>
    have hreal := isReal_render negative m e
    obtain ⟨y, hy⟩ := hreal.isSome_number?
    -- The value of the digits is by definition the form of the number.
    have hform : (Double.finite negative m e).jsonForm = some (.double y) := hy
    rw [hform]
    exact reads_number hy hreal.isNumberChar depth
  -- The names of what is not finite read as nothing.
  | nan =>
    intro rest _
    simp [NumberStyle.render_nan, numberStyle, value?, skip, isSpace, scalar?, isNumberChar,
      number?, minus, isWhole, Double.jsonForm, Double.isFinite]
  | infinite negative =>
    intro rest _
    cases negative <;>
      simp [NumberStyle.render_infinite, numberStyle, value?, skip, isSpace, scalar?, isNumberChar,
        number?, minus, isWhole, Double.jsonForm, Double.isFinite]

/-- A truth value is read back. -/
theorem reads_truth (b : Bool) (depth : Nat) :
    Reads (value? (depth + 1)) (truth b) (some (.bool b)) := by
  intro rest _
  cases b <;> simp [truth, value?, skip, isSpace, scalar?]

/-- The null value is read back. -/
theorem reads_null (depth : Nat) : Reads (value? (depth + 1)) "null".toList (some .null) := by
  intro rest _
  simp [value?, skip, isSpace, scalar?]

/-- A bracket may close a list. -/
private theorem closes_bracket : Closes ']' := ⟨by decide, by decide, by decide⟩

/-- A brace may close a dictionary. -/
private theorem closes_brace : Closes '\x7d' := ⟨by decide, by decide, by decide⟩

/-- The texts of members between brackets read as the list of what they read as. -/
theorem reads_list {depth : Nat} {ps : List (List Char)} {ws : List (Option Value)}
    (h : List.Forall₂ (Reads (value? depth)) ps ws) (hopen : ∀ p ∈ ps, Opens ']' p) :
    Reads (value? (depth + 1)) ('[' :: members ps ++ [']']) ((allSome ws).map .list) := by
  intro rest _
  have hgroup := group?_members closes_bracket (value?_space depth) h hopen rest
  have hskip : ∀ t, skip ('[' :: t) = '[' :: t := fun t => by simp [skip, isSpace]
  simp only [List.cons_append, List.append_assoc, List.nil_append, value?, hskip, hgroup]
  cases allSome ws <;> rfl

/-- The texts of entries between braces read as the dictionary of what they read as. -/
theorem reads_dictionary {depth : Nat} {ps : List (List Char)} {ws : List (Option (Value × Value))}
    (h : List.Forall₂ (Reads (member? (value? depth))) ps ws) (hopen : ∀ p ∈ ps, Opens '\x7d' p) :
    Reads (value? (depth + 1)) ('\x7b' :: members ps ++ ['\x7d'])
      ((allSome ws).map .dictionary) := by
  intro rest _
  have hgroup := group?_members closes_brace member?_space h hopen rest
  have hskip : ∀ t, skip ('\x7b' :: t) = '\x7b' :: t := fun t => by simp [skip, isSpace]
  simp only [List.cons_append, List.append_assoc, List.nil_append, value?, hskip, hgroup]
  cases allSome ws <;> rfl

/-! ## Reading back what was written -/

/-- No member is longer than all of them together. -/
private theorem length_le_of_mem_members {p : List Char} {ps : List (List Char)} (h : p ∈ ps) :
    p.length ≤ (members ps).length := by
  induction ps with
  | nil => simp at h
  | cons q ps ih =>
    -- The last member stands alone; the others have two more characters each.
    cases ps with
    | nil =>
      obtain rfl : p = q := by simpa using h
      simp only [members_singleton, Nat.le_refl]
    | cons r ps =>
      rw [members_cons_cons, List.length_append, List.length_cons, List.length_cons]
      rcases List.mem_cons.mp h with rfl | h
      · omega
      · have hle := ih h
        omega

/-- Between the ends of a group there is a level less. -/
private theorem length_le_of_group {a b : Char} {ps : List (List Char)} {depth : Nat}
    (h : (a :: members ps ++ [b]).length ≤ depth + 1) : ∀ p ∈ ps, p.length ≤ depth := by
  intro p hp
  have hle := length_le_of_mem_members hp
  simp only [List.cons_append, List.length_cons, List.length_append] at h
  omega

/-- What is read as a number opens a list, and is not empty. -/
private theorem opens_number {cs : List Char} {v : Value} (h : number? cs = some v)
    (hchars : ∀ c ∈ cs, isNumberChar c = true) : Opens ']' cs := by
  cases cs with
  | nil => simp [number?, minus, isWhole] at h
  | cons c cs =>
    -- A character of numbers is neither a space nor a bracket.
    have hc := hchars c List.mem_cons_self
    refine ⟨c, cs, rfl, ?_, ?_⟩
    · cases hspace : isSpace c with
      | false => rfl
      | true =>
        simp only [isSpace, Bool.or_eq_true, decide_eq_true_eq] at hspace
        rcases hspace with ((rfl | rfl) | rfl) | rfl <;> exact absurd hc (by decide)
    · rintro rfl
      exact absurd hc (by decide)

/-- A string does not start as a list ends. -/
private theorem opens_string (cs : List Char) : Opens ']' (string cs) :=
  ⟨'\x22', _, rfl, by decide, by decide⟩

/-- A number does not start as a list ends. -/
private theorem opens_double (x : Double) : Opens ']' (numberStyle.render x) := by
  cases x with
  | finite negative m e =>
    have hreal := isReal_render negative m e
    obtain ⟨y, hy⟩ := hreal.isSome_number?
    exact opens_number hy hreal.isNumberChar
  | nan => exact ⟨'N', ['a', 'N'], rfl, by decide, by decide⟩
  | infinite negative =>
    cases negative with
    | false => exact ⟨'I', "nfinity".toList, rfl, by decide, by decide⟩
    | true => exact ⟨'-', "Infinity".toList, rfl, by decide, by decide⟩

/-- The text of a value opens a list. -/
theorem opens_encode {v : Value} {p : List Char} (h : encode v = .ok p) : Opens ']' p := by
  -- The first character tells what kind of value it is.
  cases v with
  | null =>
    obtain rfl := Except.ok.inj h
    exact ⟨'n', ['u', 'l', 'l'], rfl, by decide, by decide⟩
  | bool b =>
    obtain rfl := Except.ok.inj h
    cases b with
    | true => exact ⟨'t', ['r', 'u', 'e'], rfl, by decide, by decide⟩
    | false => exact ⟨'f', ['a', 'l', 's', 'e'], rfl, by decide, by decide⟩
  | int n =>
    obtain rfl := Except.ok.inj h
    exact opens_number (number?_intDigits n) (isNumberChar_intDigits n)
  | double x =>
    obtain rfl := Except.ok.inj h
    exact opens_double x
  | list xs =>
    obtain ⟨ps, -, rfl⟩ := Except.map_eq_ok.mp h
    exact ⟨'[', _, rfl, by decide, by decide⟩
  | tuple xs =>
    obtain ⟨ps, -, rfl⟩ := Except.map_eq_ok.mp h
    exact ⟨'[', _, rfl, by decide, by decide⟩
  | dictionary es =>
    obtain ⟨ps, -, rfl⟩ := Except.map_eq_ok.mp h
    exact ⟨'\x7b', _, rfl, by decide, by decide⟩
  | text _ | label _ | bytes _ | moment _ | date _ | decimal _ | uuid _ | record _ _ =>
    obtain rfl := Except.ok.inj h
    exact opens_string _

/-- No member of a list starts as a list ends. -/
theorem opens_encodeList {xs : List Value} {ps : List (List Char)} (h : encodeList xs = .ok ps) :
    ∀ p ∈ ps, Opens ']' p := by
  induction xs generalizing ps with
  | nil =>
    obtain rfl := Except.ok.inj h
    simp
  | cons x xs ih =>
    obtain ⟨p, hp, h⟩ := Except.bind_eq_ok.mp h
    obtain ⟨qs, hqs, h⟩ := Except.bind_eq_ok.mp h
    obtain rfl := Except.ok.inj h
    intro q hq
    rcases List.mem_cons.mp hq with rfl | hq
    · exact opens_encode hp
    · exact ih hqs q hq

/-- No entry of a dictionary starts as a dictionary ends. -/
theorem opens_encodeEntries {es : Entries} {ps : List (List Char)}
    (h : encodeEntries es = .ok ps) : ∀ p ∈ ps, Opens '\x7d' p := by
  induction es generalizing ps with
  | nil =>
    obtain rfl := Except.ok.inj h
    simp
  | cons e es ih =>
    obtain ⟨key, -, h⟩ := Except.bind_eq_ok.mp h
    obtain ⟨p, -, h⟩ := Except.bind_eq_ok.mp h
    obtain ⟨qs, hqs, h⟩ := Except.bind_eq_ok.mp h
    obtain rfl := Except.ok.inj h
    intro q hq
    rcases List.mem_cons.mp hq with rfl | hq
    · -- Every entry starts with the quote of its key.
      exact ⟨'\x22', _, rfl, by decide, by decide⟩
    · exact ih hqs q hq

mutual

/-- The text of a value reads as its form. -/
theorem reads_encode : (v : Value) → {p : List Char} → encode v = .ok p → {depth : Nat} →
    p.length ≤ depth → Reads (value? depth) p v.jsonForm
  | v, p, h, 0, hdepth => by
    -- No text is empty, so that a level is always left for it.
    obtain ⟨c, cs, rfl, -, -⟩ := opens_encode h
    simp at hdepth
  | .list xs, p, h, depth + 1, hdepth => by
    obtain ⟨ps, hps, rfl⟩ := Except.map_eq_ok.mp h
    have hmembers := reads_encodeList xs hps (length_le_of_group hdepth)
    exact reads_list hmembers (opens_encodeList hps)
  | .tuple xs, p, h, depth + 1, hdepth => by
    obtain ⟨ps, hps, rfl⟩ := Except.map_eq_ok.mp h
    have hmembers := reads_encodeList xs hps (length_le_of_group hdepth)
    exact reads_list hmembers (opens_encodeList hps)
  | .dictionary es, p, h, depth + 1, hdepth => by
    obtain ⟨ps, hps, rfl⟩ := Except.map_eq_ok.mp h
    have hentries := reads_encodeEntries es hps (length_le_of_group hdepth)
    exact reads_dictionary hentries (opens_encodeEntries hps)
  | .null, p, h, depth + 1, _ => Except.ok.inj h ▸ reads_null depth
  | .bool b, p, h, depth + 1, _ => Except.ok.inj h ▸ reads_truth b depth
  | .int n, p, h, depth + 1, _ =>
    Except.ok.inj h ▸ reads_number (number?_intDigits n) (isNumberChar_intDigits n) depth
  | .double x, p, h, depth + 1, _ => Except.ok.inj h ▸ reads_double x depth
  | .text s, p, h, depth + 1, _ => Except.ok.inj h ▸ reads_text depth s
  | .label l, p, h, depth + 1, _ => Except.ok.inj h ▸ reads_text depth l.text
  | .bytes bs, p, h, depth + 1, _ => Except.ok.inj h ▸ reads_text depth _
  | .moment m, p, h, depth + 1, _ => Except.ok.inj h ▸ reads_text depth _
  | .date d, p, h, depth + 1, _ => Except.ok.inj h ▸ reads_text depth _
  | .decimal d, p, h, depth + 1, _ => Except.ok.inj h ▸ reads_text depth _
  | .uuid u, p, h, depth + 1, _ => Except.ok.inj h ▸ reads_text depth _
  | .record s given, p, h, depth + 1, _ => Except.ok.inj h ▸ reads_text depth _

/-- The texts of the members of a list read as their forms. -/
theorem reads_encodeList : (xs : List Value) → {ps : List (List Char)} → encodeList xs = .ok ps →
    {depth : Nat} → (∀ p ∈ ps, p.length ≤ depth) →
    List.Forall₂ (Reads (value? depth)) ps (Value.jsonForms xs)
  | [], ps, h, _, _ => Except.ok.inj h ▸ .nil
  | x :: xs, ps, h, depth, hdepth => by
    obtain ⟨p, hp, h⟩ := Except.bind_eq_ok.mp h
    obtain ⟨qs, hqs, h⟩ := Except.bind_eq_ok.mp h
    obtain rfl := Except.ok.inj h
    exact .cons (reads_encode x hp (hdepth p List.mem_cons_self))
      (reads_encodeList xs hqs fun q hq => hdepth q (List.mem_cons_of_mem p hq))

/-- The texts of the entries of a dictionary read as their forms. -/
theorem reads_encodeEntries : (es : List (Value × Value)) → {ps : List (List Char)} →
    encodeEntries es = .ok ps → {depth : Nat} → (∀ p ∈ ps, p.length ≤ depth) →
    List.Forall₂ (Reads (member? (value? depth))) ps (Value.jsonFormsOfEntries es)
  | [], ps, h, _, _ => Except.ok.inj h ▸ .nil
  | (k, v) :: es, ps, h, depth, hdepth => by
    obtain ⟨key, hkey, h⟩ := Except.bind_eq_ok.mp h
    obtain ⟨p, hp, h⟩ := Except.bind_eq_ok.mp h
    obtain ⟨qs, hqs, h⟩ := Except.bind_eq_ok.mp h
    obtain rfl := Except.ok.inj h
    have hfirst := hdepth _ List.mem_cons_self
    have hle : p.length ≤ depth := by
      simp only [List.length_append, List.length_cons] at hfirst
      omega
    -- The text that the key was written as is the one that its form tells.
    have hstring : keyString k = String.ofList key := by rw [keyString, hkey]
    have hmember := reads_member (value?_space depth) (reads_encode v hp hle) key
    rw [← hstring] at hmember
    exact .cons hmember
      (reads_encodeEntries es hqs fun q hq => hdepth q (List.mem_cons_of_mem _ hq))

end

/-- What is encoded reads back as the form of the value, and not at all where a double in it has
none. -/
theorem read?_encode {v : Value} {p : List Char} (h : encode v = .ok p) :
    read? p = v.jsonForm := by
  have hreads := reads_encode v h (Nat.le_refl p.length) [] ends_nil
  rw [List.append_nil] at hreads
  rw [read?, hreads]
  cases v.jsonForm <;> rfl

end Json

end AccessGraph
