import AccessGraph.Config.Instance
import AccessGraph.Proofs.Config.Constraints

/-!
# Look-ups among the entries of a dictionary

A field is looked up by its name, so a check of a field depends on nothing but what the look-up
gives (`Field.required_congr`, `Field.optional_congr`).  The entries that a table makes are found as
the table finds them.
-/

namespace AccessGraph

/-- The entries of a table are found as the table finds them. -/
theorem Value.find?_entriesOf (t : Table) (name : String) :
    find? (Schema.entriesOf t) name = t.lookup name := by
  induction t with
  | nil => rfl
  | cons f t ih =>
    obtain ⟨k, v⟩ := f
    rw [List.lookup_cons, ← ih]
    by_cases hk : k = name
    · simp [find?, Schema.entriesOf, text?, hk]
    · have hne : (name == k) = false := by simpa using Ne.symm hk
      simp [find?, Schema.entriesOf, text?, hk, hne]

/-- What a filter on the names of entries leaves of a look-up. -/
theorem Value.find?_filter_text? (es : Entries) (p : Option String → Bool) (name : String) :
    find? (es.filter fun e => p e.1.text?) name
      = if p (some name) then find? es name else none := by
  induction es with
  | nil => simp [find?]
  | cons e es ih =>
    by_cases hname : e.1.text? = some name
    · -- An entry of the name is kept or dropped, and with it all others of the name.
      by_cases hp : p (some name) = true
      · simp [find?, hname, hp]
      · simp only [List.filter_cons, hname, hp, ↓reduceIte, Bool.false_eq_true] at ih ⊢
        exact ih
    · -- Any other entry does not matter to the search.
      have hskip : find? (e :: es) name = find? es name := by simp [find?, hname]
      rw [hskip, ← ih, List.filter_cons]
      split
      · simp [find?, hname]
      · rfl

/-- What a filter on the names of a table leaves of a look-up. -/
theorem lookup_filter_fst (t : Table) (p : String → Bool) (name : String) :
    (t.filter fun f => p f.1).lookup name = if p name then t.lookup name else none := by
  have hfind := Value.find?_filter_text? (Schema.entriesOf t) (fun o => o.elim false p) name
  have hentries : (Schema.entriesOf t).filter (fun e => e.1.text?.elim false p)
      = Schema.entriesOf (t.filter fun f => p f.1) := List.filter_map
  rw [hentries, Value.find?_entriesOf, Value.find?_entriesOf] at hfind
  exact hfind

namespace Field

variable {α : Type} {es fs : Entries} {name : String} {check : Check α}

/-- A field depends on what stands under its name alone. -/
theorem required_congr (h : Value.find? es name = Value.find? fs name) :
    required es name check = required fs name check := by
  rw [required, required, h]

/-- A field with a default depends on what stands under its name alone. -/
theorem optional_congr {default : α} (h : Value.find? es name = Value.find? fs name) :
    optional es name default check = optional fs name default check := by
  rw [optional, optional, h]

end Field

end AccessGraph
