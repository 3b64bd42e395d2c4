import AccessGraph.Proofs.Registry.Effects

/-!
# Names of schemas

The names of the two schemas are written into every statement as they are, without quotes, so they
are held to a grammar: a letter or an underscore, and behind it letters, digits and underscores, all
of them ASCII.

`IsPlainIdentifier` is that grammar.  The check of a name looks past one line feed at its end and
keeps it (`isSchemaName_iff`), so an accepted name is a plain identifier with at most a line feed
behind it.  `create_accepts_identifiers` says which registries are opened, what is wrong with the
others, and how the tables of an open registry are referred to.
-/

namespace AccessGraph

/-! ## Plain identifiers -/

/-- A letter from A to Z, in either case. -/
def IsLetter (c : Char) : Prop := 'A' ≤ c ∧ c ≤ 'Z' ∨ 'a' ≤ c ∧ c ≤ 'z'

/-- A letter, an underscore or a digit from 0 to 9. -/
def IsWordChar (c : Char) : Prop := IsLetter c ∨ c = '_' ∨ '0' ≤ c ∧ c ≤ '9'

/-- One letter or underscore, and behind it any number of letters, digits and underscores. -/
def IsPlainIdentifier (s : String) : Prop :=
  ∃ c cs, s.toList = c :: cs ∧ (IsLetter c ∨ c = '_') ∧ ∀ d ∈ cs, IsWordChar d

/-- The letters of the test are those of the alphabet. -/
private theorem isAlpha_iff {c : Char} : c.isAlpha = true ↔ IsLetter c := by
  unfold Char.isAlpha Char.isUpper Char.isLower IsLetter
  simp only [Bool.or_eq_true, Bool.and_eq_true, decide_eq_true_eq, Char.le_def]

/-- An identifier starts with a letter or an underscore. -/
private theorem isIdentifierStart_iff {c : Char} :
    isIdentifierStart c = true ↔ IsLetter c ∨ c = '_' := by
  simp only [isIdentifierStart, Bool.or_eq_true, decide_eq_true_eq, isAlpha_iff]

/-- An identifier goes on with letters, digits and underscores. -/
private theorem isWordChar_iff {c : Char} :
    (isIdentifierStart c || c.isDigit) = true ↔ IsWordChar c := by
  simp only [Bool.or_eq_true, isIdentifierStart_iff, IsWordChar, or_assoc, Char.isDigit,
    Bool.and_eq_true, decide_eq_true_eq, Char.le_def]

/-- The test for identifiers, as a grammar. -/
private theorem isIdentifier_iff {s : String} :
    isIdentifier s.toList = true ↔ IsPlainIdentifier s := by
  cases hs : s.toList with
  | nil => simp [isIdentifier, IsPlainIdentifier, hs]
  | cons c cs =>
    -- The first character may not be a digit; the others may.
    have hchars : isIdentifier (c :: cs) = true
        ↔ (IsLetter c ∨ c = '_') ∧ ∀ d ∈ cs, IsWordChar d := by
      simp only [isIdentifier, Bool.and_eq_true, isIdentifierStart_iff, List.all_eq_true,
        isWordChar_iff]
    rw [hchars]
    constructor
    · rintro ⟨hc, hcs⟩
      exact ⟨c, cs, hs, hc, hcs⟩
    · rintro ⟨d, ds, hds, hd, hall⟩
      obtain ⟨rfl, rfl⟩ := List.cons.inj (hs.symm.trans hds)
      exact ⟨hd, hall⟩

instance (s : String) : Decidable (IsPlainIdentifier s) := decidable_of_iff _ isIdentifier_iff

/-- All characters of an identifier are word characters. -/
private theorem IsPlainIdentifier.isWordChar {s : String} (h : IsPlainIdentifier s) :
    ∀ c ∈ s.toList, IsWordChar c := by
  obtain ⟨c, cs, hs, hc, hcs⟩ := h
  intro d hd
  rw [hs] at hd
  rcases List.mem_cons.mp hd with rfl | hd
  · exact hc.elim .inl fun h => .inr (.inl h)
  · exact hcs d hd

/-- A character that is no letter, digit or underscore does not occur in a plain identifier. -/
private theorem IsPlainIdentifier.notMem {s : String} (h : IsPlainIdentifier s) {c : Char}
    (hc : (isIdentifierStart c || c.isDigit) = false) : c ∉ s.toList := by
  intro hmem
  rw [isWordChar_iff.mpr (h.isWordChar c hmem)] at hc
  exact absurd hc (by decide)

/-- The first character that does not belong to a plain identifier is the one behind it. -/
private theorem IsPlainIdentifier.dropWhile_append {s : String} (h : IsPlainIdentifier s) {c : Char}
    (hc : (isIdentifierStart c || c.isDigit) = false) (rest : List Char) :
    (s.toList ++ c :: rest).dropWhile (fun d => isIdentifierStart d || d.isDigit) = c :: rest := by
  rw [List.dropWhile_append_of_pos fun d hd => isWordChar_iff.mpr (h.isWordChar d hd),
    List.dropWhile_cons_of_neg (by rw [hc]; decide)]

/-! ## Accepted names -/

/-- What may stand behind the identifier: nothing, or one line feed. -/
def IsFeed (feed : String) : Prop := feed = "" ∨ feed = "\n"

/-- A plain identifier with at most a line feed behind it. -/
def IsAcceptedName (s : String) : Prop :=
  ∃ t feed, IsPlainIdentifier t ∧ IsFeed feed ∧ s = t ++ feed

/-- What is in front of a line feed at the end of a name is what is checked. -/
private theorem isSchemaName_append_feed (s : String) :
    isSchemaName (s ++ "\n") = isIdentifier s.toList := by
  have hlist : (s ++ "\n").toList = s.toList ++ ['\n'] := by simp
  rw [isSchemaName, dropFinalNewline, hlist, List.getLast?_concat, if_pos rfl,
    List.dropLast_concat]

/-- Without a line feed at its end a text is accepted if it is an identifier. -/
private theorem isSchemaName_of_getLast? {s : String} (h : s.toList.getLast? ≠ some '\n') :
    isSchemaName s = isIdentifier s.toList := by
  rw [isSchemaName, dropFinalNewline, if_neg h]

/-- The names that are accepted, as a grammar. -/
theorem isSchemaName_iff {s : String} : isSchemaName s = true ↔ IsAcceptedName s := by
  constructor
  · intro h
    by_cases hlast : s.toList.getLast? = some '\n'
    · obtain ⟨cs, hcs⟩ := List.getLast?_eq_some_iff.mp hlast
      have hs : s = String.ofList cs ++ "\n" := by
        rw [← String.toList_inj, hcs]
        simp
      rw [hs, isSchemaName_append_feed, isIdentifier_iff] at h
      exact ⟨String.ofList cs, "\n", h, .inr rfl, hs⟩
    · rw [isSchemaName_of_getLast? hlast, isIdentifier_iff] at h
      exact ⟨s, "", h, .inl rfl, String.append_empty.symm⟩
  · rintro ⟨t, feed, ht, rfl | rfl, rfl⟩
    · -- Without a line feed behind it, the identifier has none at its end either.
      have hlast : t.toList.getLast? ≠ some '\n' := fun h =>
        ht.notMem (by decide) (List.mem_of_getLast? h)
      rwa [String.append_empty, isSchemaName_of_getLast? hlast, isIdentifier_iff]
    · rwa [isSchemaName_append_feed, isIdentifier_iff]

/-- The names that are refused, as a grammar. -/
private theorem isSchemaName_eq_false_iff {s : String} :
    isSchemaName s = false ↔ ¬ IsAcceptedName s := by
  rw [← isSchemaName_iff, Bool.not_eq_true]

instance (s : String) : Decidable (IsAcceptedName s) := decidable_of_iff _ isSchemaName_iff

/-! ## Opening registries -/

/-- How a table of a schema is referred to: by the name of the schema, which is a plain identifier
with at most a line feed behind it, a point, and the name of the table. -/
def IsReference (schema table text : String) : Prop :=
  ∃ t feed, IsPlainIdentifier t ∧ IsFeed feed ∧ schema = t ++ feed ∧
    text = t ++ feed ++ "." ++ table

/-- An accepted name in front of a table makes a reference to the table. -/
private theorem IsAcceptedName.isReference {schema : String} (h : IsAcceptedName schema)
    (table : String) :
    IsReference schema table (schema ++ "." ++ table) := by
  obtain ⟨t, feed, ht, hfeed, rfl⟩ := h
  exact ⟨t, feed, ht, hfeed, rfl, rfl⟩

namespace Registry

/-- A registry is opened just when both names in effect, which are those given or the defaults in
the place of absent and empty ones, are plain identifiers with at most a line feed behind them.
Otherwise the error names the first of the two fields with another name.  An open registry refers to
its tables by these names with a point behind them, whatever is done with it. -/
theorem create_accepts_identifiers (defaults : Names) (schema auth : Option String) :
    let names : Names := ⟨orDefault defaults.schema schema, orDefault defaults.authSchema auth⟩
    ((∃ r, create defaults schema auth = .ok r) ↔
      IsAcceptedName names.schema ∧ IsAcceptedName names.authSchema) ∧
    (¬ IsAcceptedName names.schema →
      create defaults schema auth = .error (.schemaName .schema names.schema) ∧
      (Error.schemaName .schema names.schema).fields = ["schema_name"]) ∧
    (IsAcceptedName names.schema → ¬ IsAcceptedName names.authSchema →
      create defaults schema auth = .error (.schemaName .auth names.authSchema) ∧
      (Error.schemaName .auth names.authSchema).fields = ["auth_schema_name"]) ∧
    ∀ r, create defaults schema auth = .ok r → ∀ (cs : List Command) (table : String),
      IsReference names.schema table ((r.attempts cs).names.table table) ∧
      IsReference names.authSchema table ((r.attempts cs).names.authTable table) := by
  intro names
  refine ⟨?_, fun hschema => ?_, fun hschema hauth => ?_, fun r hr cs table => ?_⟩
  · constructor
    · rintro ⟨r, hr⟩
      obtain ⟨hschema, hauth, -⟩ := create_eq_ok.mp hr
      exact ⟨isSchemaName_iff.mp hschema, isSchemaName_iff.mp hauth⟩
    · rintro ⟨hschema, hauth⟩
      exact ⟨empty names,
        create_eq_ok.mpr ⟨isSchemaName_iff.mpr hschema, isSchemaName_iff.mpr hauth, rfl⟩⟩
  · exact ⟨create_of_schema (isSchemaName_eq_false_iff.mpr hschema), rfl⟩
  · exact ⟨create_of_authSchema (isSchemaName_iff.mpr hschema)
      (isSchemaName_eq_false_iff.mpr hauth), rfl⟩
  · obtain ⟨hschema, hauth, rfl⟩ := create_eq_ok.mp hr
    -- No command changes the names that the registry was opened with.
    rw [names_attempts]
    exact ⟨(isSchemaName_iff.mp hschema).isReference table,
      (isSchemaName_iff.mp hauth).isReference table⟩

/-- A default name and a given one; a default with a hyphen, which is found before the digit in
front of the other name; and a letter beyond ASCII. -/
theorem create_accepts_identifiers_sample :
    (∃ r, create ⟨"graph", "auth"⟩ none (some "_x9") = .ok r ∧ ∀ cs,
      IsReference "graph" "roles" ((r.attempts cs).names.table "roles") ∧
      IsReference "_x9" "users" ((r.attempts cs).names.authTable "users")) ∧
    create ⟨"access-graph", "auth"⟩ (some "") (some "9a")
      = .error (.schemaName .schema "access-graph") ∧
    create ⟨"graph", "auth"⟩ none (some "é") = .error (.schemaName .auth "é") := by
  -- An empty name stands for the default; the schema's own name is told before the other.
  obtain ⟨haccepted, -, -, htables⟩ :=
    create_accepts_identifiers ⟨"graph", "auth"⟩ none (some "_x9")
  obtain ⟨-, hschema, -, -⟩ :=
    create_accepts_identifiers ⟨"access-graph", "auth"⟩ (some "") (some "9a")
  obtain ⟨-, -, hauth, -⟩ := create_accepts_identifiers ⟨"graph", "auth"⟩ none (some "é")
  obtain ⟨r, hr⟩ := haccepted.mpr (by decide)
  exact ⟨⟨r, hr, fun cs => ⟨(htables r hr cs "roles").1, (htables r hr cs "users").2⟩⟩,
    (hschema (by decide)).1, (hauth (by decide) (by decide)).1⟩

/-- A name that is no plain identifier is accepted with a line feed at its end, and no plain
identifier with a point behind it starts the references to the tables. -/
theorem line_feed_is_accepted :
    ∃ r, create ⟨"supamode", "auth"⟩ (some "graph\n") none = .ok r ∧
      ¬ IsPlainIdentifier (orDefault "supamode" (some "graph\n")) ∧
      r.names.table "roles" = "graph\n.roles" ∧
      ∀ s rest : String, IsPlainIdentifier s → "graph\n.roles" ≠ s ++ "." ++ rest := by
  refine ⟨_, create_eq_ok.mpr ⟨by decide, by decide, rfl⟩, by decide, by decide, ?_⟩
  intro s rest hs heq
  have hlist : "graph\n.roles".toList = s.toList ++ '.' :: rest.toList := by simp [heq]
  -- Behind the word in front stands a line feed on one side and a point on the other.
  have hpoint := congrArg List.head? (hs.dropWhile_append (c := '.') (by decide) rest.toList)
  rw [← hlist, List.head?_cons] at hpoint
  exact absurd hpoint (by decide)

end Registry

end AccessGraph
