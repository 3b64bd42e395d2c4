import AccessGraph.Proofs.Json.Values
import AccessGraph.Text.Quoted

/-!
# JSON text is printable

Every JSON text that is written consists of the characters of printable ASCII, whatever the value:
so it stands in one line (`Json.plainAscii_encode`).
-/

namespace AccessGraph.Json

open Text (fixedDigits isPlainAscii)

/-! ## Strings -/

/-- Characters that are all printable ASCII, and so stand in one line. -/
def PlainAscii (cs : List Char) : Prop := ∀ c ∈ cs, isPlainAscii c = true

theorem PlainAscii.append {a b : List Char} (ha : PlainAscii a) (hb : PlainAscii b) :
    PlainAscii (a ++ b) := fun c hc => (List.mem_append.mp hc).elim (ha c) (hb c)

theorem PlainAscii.cons {c : Char} (hc : isPlainAscii c = true) {a : List Char}
    (ha : PlainAscii a) : PlainAscii (c :: a) :=
  fun d hd => (List.mem_cons.mp hd).elim (fun heq => heq ▸ hc) (ha d)

theorem plainAscii_nil : PlainAscii [] := fun _ hc => absurd hc List.not_mem_nil

theorem plainAscii_of_all {cs : List Char} (h : cs.all isPlainAscii = true) : PlainAscii cs :=
  List.all_eq_true.mp h

/-- Hexadecimal digits are plain. -/
private theorem plainAscii_fixedDigits (width n : Nat) : PlainAscii (fixedDigits 16 width n) := by
  have hall : ∀ m < 16, isPlainAscii (Nat.digitChar m) = true := by decide
  induction width generalizing n with
  | zero => exact plainAscii_nil
  | succ width ih =>
    rw [fixedDigits]
    exact (ih _).append (plainAscii_nil.cons (hall _ (Nat.mod_lt n (by decide))))

/-- An escape by number is plain, whatever it stands for. -/
private theorem plainAscii_escapeUnit (n : Nat) : PlainAscii (escapeUnit n) :=
  ((plainAscii_fixedDigits 4 n).cons (by decide)).cons (by decide)

/-- However a character is written in a string, it is in plain characters. -/
private theorem plainAscii_written {c : Char} {w : List Char} (h : Written c w) : PlainAscii w := by
  cases h with
  | letter _ _ hplain => exact (plainAscii_nil.cons hplain).cons (by decide)
  | plain _ _ hplain => exact plainAscii_nil.cons hplain
  | unit _ => exact plainAscii_escapeUnit _
  | pair _ => exact (plainAscii_escapeUnit _).append (plainAscii_escapeUnit _)

/-- A string is written in plain characters, whatever is in it. -/
theorem plainAscii_string (cs : List Char) : PlainAscii (string cs) := by
  have hbody : PlainAscii (cs.flatMap escapeChar) := fun c hc => by
    obtain ⟨d, -, hd⟩ := List.mem_flatMap.mp hc
    exact plainAscii_written (written_escapeChar d) c hd
  have hquote : PlainAscii ['\x22'] := plainAscii_nil.cons (by decide)
  exact (hbody.append hquote).cons (by decide)

/-! ## Numbers and names -/

private theorem isPlainAscii_of_isDigit {c : Char} (h : c.isDigit = true) :
    isPlainAscii c = true := by
  have hrange : 48 ≤ c.toNat ∧ c.toNat ≤ 57 := Char.isDigit_iff_toNat.mp h
  simp only [isPlainAscii, Bool.and_eq_true, decide_eq_true_eq]
  omega

/-- The characters of numbers are plain. -/
private theorem isPlainAscii_of_isNumberChar {c : Char} (h : isNumberChar c = true) :
    isPlainAscii c = true := by
  simp only [isNumberChar, Bool.or_eq_true, decide_eq_true_eq] at h
  rcases h with ((((hdigit | rfl) | rfl) | rfl) | rfl) | rfl
  · exact isPlainAscii_of_isDigit hdigit
  all_goals decide

/-- A double is written in plain characters. -/
private theorem plainAscii_render (x : Double) : PlainAscii (numberStyle.render x) := by
  cases x with
  | finite negative m e =>
    exact fun c hc => isPlainAscii_of_isNumberChar ((isReal_render negative m e).isNumberChar c hc)
  | nan =>
    -- The names of what is not finite are letters.
    have hname : PlainAscii "NaN".toList := plainAscii_of_all (by decide +kernel)
    exact hname
  | infinite negative =>
    have hname : PlainAscii "Infinity".toList := plainAscii_of_all (by decide +kernel)
    cases negative with
    | false => exact hname
    | true => exact hname.cons (by decide)

private theorem plainAscii_truth (b : Bool) : PlainAscii (truth b) := by
  cases b <;> exact plainAscii_of_all (by decide +kernel)

/-- Members in plain characters are in plain characters together. -/
private theorem plainAscii_members {ps : List (List Char)} (h : ∀ p ∈ ps, PlainAscii p) :
    PlainAscii (members ps) := by
  induction ps with
  | nil => exact plainAscii_nil
  | cons p ps ih =>
    have hp := h p List.mem_cons_self
    have hps := ih fun q hq => h q (List.mem_cons_of_mem p hq)
    -- The last member stands alone, and each other one has a comma and a space behind it.
    cases ps with
    | nil => rwa [members_singleton]
    | cons q ps =>
      rw [members_cons_cons]
      exact hp.append ((hps.cons (by decide)).cons (by decide))

/-- What stands between two printable characters is printable if they are. -/
private theorem plainAscii_group {a b : Char} (ha : isPlainAscii a = true)
    (hb : isPlainAscii b = true)
    {ps : List (List Char)} (h : ∀ p ∈ ps, PlainAscii p) :
    PlainAscii (a :: members ps ++ [b]) :=
  ((plainAscii_members h).cons ha).append (plainAscii_nil.cons hb)

mutual

/-- The text of a value is printable ASCII. -/
theorem plainAscii_encode : (v : Value) → {p : List Char} → encode v = .ok p → PlainAscii p
  | .list xs, p, h => by
    obtain ⟨ps, hps, rfl⟩ := Except.map_eq_ok.mp h
    exact plainAscii_group (by decide) (by decide) (plainAscii_encodeList xs hps)
  | .tuple xs, p, h => by
    obtain ⟨ps, hps, rfl⟩ := Except.map_eq_ok.mp h
    exact plainAscii_group (by decide) (by decide) (plainAscii_encodeList xs hps)
  | .dictionary es, p, h => by
    obtain ⟨ps, hps, rfl⟩ := Except.map_eq_ok.mp h
    exact plainAscii_group (by decide) (by decide) (plainAscii_encodeEntries es hps)
  | .null, p, h => by
    obtain rfl := Except.ok.inj h
    simp [PlainAscii, isPlainAscii]
  | .bool b, p, h => Except.ok.inj h ▸ plainAscii_truth b
  | .int n, p, h => by
    obtain rfl := Except.ok.inj h
    exact fun c hc => isPlainAscii_of_isNumberChar (isNumberChar_intDigits n c hc)
  | .double x, p, h => Except.ok.inj h ▸ plainAscii_render x
  -- What is no value of its own kind is written as a string.
  | .text s, p, h => Except.ok.inj h ▸ plainAscii_string _
  | .label l, p, h => Except.ok.inj h ▸ plainAscii_string _
  | .bytes _, p, h => Except.ok.inj h ▸ plainAscii_string _
  | .moment _, p, h => Except.ok.inj h ▸ plainAscii_string _
  | .date _, p, h => Except.ok.inj h ▸ plainAscii_string _
  | .decimal _, p, h => Except.ok.inj h ▸ plainAscii_string _
  | .uuid _, p, h => Except.ok.inj h ▸ plainAscii_string _
  | .record _ _, p, h => Except.ok.inj h ▸ plainAscii_string _

/-- The members of a list are written in plain characters. -/
theorem plainAscii_encodeList : (xs : List Value) → {ps : List (List Char)} →
    encodeList xs = .ok ps → ∀ p ∈ ps, PlainAscii p
  | [], ps, h => by
    obtain rfl := Except.ok.inj h
    simp
  | x :: xs, ps, h => by
    obtain ⟨p, hp, h⟩ := Except.bind_eq_ok.mp h
    obtain ⟨qs, hqs, h⟩ := Except.bind_eq_ok.mp h
    obtain rfl := Except.ok.inj h
    exact List.forall_mem_cons.mpr ⟨plainAscii_encode x hp, plainAscii_encodeList xs hqs⟩

/-- The entries of a dictionary are written in plain characters. -/
theorem plainAscii_encodeEntries : (es : List (Value × Value)) → {ps : List (List Char)} →
    encodeEntries es = .ok ps → ∀ p ∈ ps, PlainAscii p
  | [], ps, h => by
    obtain rfl := Except.ok.inj h
    simp
  | (k, v) :: es, ps, h => by
    obtain ⟨key, -, h⟩ := Except.bind_eq_ok.mp h
    obtain ⟨p, hp, h⟩ := Except.bind_eq_ok.mp h
    obtain ⟨qs, hqs, h⟩ := Except.bind_eq_ok.mp h
    obtain rfl := Except.ok.inj h
    have hvalue := ((plainAscii_encode v hp).cons (by decide : isPlainAscii ' ' = true)).cons
      (by decide : isPlainAscii ':' = true)
    exact List.forall_mem_cons.mpr
      ⟨(plainAscii_string key).append hvalue, plainAscii_encodeEntries es hqs⟩

end

end AccessGraph.Json
