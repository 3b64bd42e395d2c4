import AccessGraph.Proofs.Json.Values

/-!
# What comes back from JSON text

Plain data comes back as it was.  A text is JSON just when all binary64 numbers inside the value
that it was written for are finite; numbers in keys do not matter, since keys are written as
strings.
-/

namespace AccessGraph

/-! ## Plain data -/

/-- Members that are mapped to themselves are all there. -/
private theorem allSome_map_eq_some {α : Type} {f : α → Option α} {xs : List α}
    (h : ∀ x ∈ xs, f x = some x) : allSome (xs.map f) = some xs := by
  induction xs with
  | nil => rfl
  | cons x xs ih =>
    rw [List.forall_mem_cons] at h
    rw [List.map_cons, h.1, allSome_some, ih h.2]
    rfl

namespace Value

/-- Data made of null, truth values, integers, texts, lists, and dictionaries with texts as keys. -/
inductive IsPlain : Value → Prop
  | null : IsPlain .null
  | bool (b : Bool) : IsPlain (.bool b)
  | int (n : Int) : IsPlain (.int n)
  | text (s : String) : IsPlain (.text s)
  | list {xs : List Value} : (∀ x ∈ xs, IsPlain x) → IsPlain (.list xs)
  | dictionary {es : Entries} : (∀ e ∈ es, ∃ s, e.1 = .text s) → (∀ e ∈ es, IsPlain e.2) →
    IsPlain (.dictionary es)

/-- The forms of a list, member by member. -/
private theorem jsonForms_eq_map (xs : List Value) : jsonForms xs = xs.map jsonForm := by
  induction xs with
  | nil => rfl
  | cons x xs ih => rw [jsonForms, ih, List.map_cons]

/-- The forms of entries, entry by entry: the key becomes a text. -/
private theorem jsonFormsOfEntries_eq_map (es : Entries) :
    jsonFormsOfEntries es
      = es.map fun e => e.2.jsonForm.map fun w => (.text (Json.keyString e.1), w) := by
  induction es with
  | nil => rfl
  | cons e es ih => rw [jsonFormsOfEntries, ih, List.map_cons]

/-- The keys within a list, member by member. -/
private theorem innerKeysOfList_eq_flatMap (xs : List Value) :
    innerKeysOfList xs = xs.flatMap innerKeys := by
  induction xs with
  | nil => rfl
  | cons x xs ih => rw [innerKeysOfList, ih, List.flatMap_cons]

/-- The keys within entries, each entry's own key before those in its value. -/
private theorem innerKeysOfEntries_eq_flatMap (es : Entries) :
    innerKeysOfEntries es = es.flatMap fun e => e.1 :: e.2.innerKeys := by
  induction es with
  | nil => rfl
  | cons e es ih => rw [innerKeysOfEntries, ih, List.flatMap_cons, List.cons_append]

/-- Plain data reads back as it was. -/
theorem IsPlain.jsonForm_eq {v : Value} (h : v.IsPlain) : v.jsonForm = some v := by
  induction h with
  | null => rfl
  | bool => rfl
  | int => rfl
  | text => rfl
  | list _ ih => rw [jsonForm, jsonForms_eq_map, allSome_map_eq_some ih, Option.map_some]
  | dictionary hkeys _ ih =>
    rw [jsonForm, jsonFormsOfEntries_eq_map, allSome_map_eq_some, Option.map_some]
    -- A plain dictionary has texts as keys, which stay as they are.
    rintro ⟨k, v⟩ he
    obtain ⟨s, rfl⟩ : ∃ s, k = .text s := hkeys _ he
    have hkey : Json.keyString (.text s) = s := by simp [Json.keyString, Json.keyText]
    rw [ih _ he, hkey, Option.map_some]

/-- All keys inside plain data have a JSON form. -/
theorem IsPlain.isJsonKey {v : Value} (h : v.IsPlain) : ∀ k ∈ v.innerKeys, k.isJsonKey = true := by
  induction h with
  | null => simp [innerKeys]
  | bool => simp [innerKeys]
  | int => simp [innerKeys]
  | text => simp [innerKeys]
  | list _ ih =>
    intro k hk
    rw [innerKeys, innerKeysOfList_eq_flatMap] at hk
    obtain ⟨x, hx, hk⟩ := List.mem_flatMap.mp hk
    exact ih x hx k hk
  -- The keys are those of the dictionary itself and those within its values.
  | dictionary hkeys _ ih =>
    intro k hk
    rw [innerKeys, innerKeysOfEntries_eq_flatMap] at hk
    obtain ⟨e, he, hk⟩ := List.mem_flatMap.mp hk
    rcases List.mem_cons.mp hk with rfl | hk
    · obtain ⟨s, hs⟩ := hkeys e he
      rw [hs]
      rfl
    · exact ih e he k hk

end Value

/-! ## Numbers without a JSON form -/

namespace Value

mutual

/-- The binary64 numbers inside a value, through dictionaries, lists and tuples at any depth; keys
do not count, since they are written as strings. -/
def innerDoubles : Value → List Double
  | .double x => [x]
  | .list xs => innerDoublesOfList xs
  | .tuple xs => innerDoublesOfList xs
  | .dictionary es => innerDoublesOfEntries es
  | _ => []

/-- The binary64 numbers inside the members of a list. -/
def innerDoublesOfList : List Value → List Double
  | [] => []
  | x :: xs => innerDoubles x ++ innerDoublesOfList xs

/-- The binary64 numbers inside the values of a dictionary. -/
def innerDoublesOfEntries : List (Value × Value) → List Double
  | [] => []
  | (_, v) :: es => innerDoubles v ++ innerDoublesOfEntries es

end

end Value

/-- A double has a form just if it is finite. -/
theorem Double.isSome_jsonForm (x : Double) : x.jsonForm.isSome = x.isFinite := by
  cases x with
  | finite negative m e =>
    obtain ⟨y, hy⟩ := (Json.isReal_render negative m e).isSome_number?
    have hform : (Double.finite negative m e).jsonForm = some (.double y) := hy
    rw [hform]
    rfl
  | nan => rfl
  | infinite negative => rfl

/-- A list is all there if its first member and the rest are. -/
private theorem isSome_allSome_cons {α : Type} (w : Option α) (ws : List (Option α)) :
    (allSome (w :: ws)).isSome = true ↔ w.isSome = true ∧ (allSome ws).isSome = true := by
  cases w with
  | none => simp [allSome]
  | some x => simp [allSome_some]

namespace Value

mutual

/-- A text is JSON just when all binary64 numbers inside the value are finite. -/
theorem isSome_jsonForm_iff : (v : Value) →
    (v.jsonForm.isSome = true ↔ ∀ x ∈ v.innerDoubles, x.isFinite = true)
  | .list xs => by
    rw [jsonForm, Option.isSome_map, innerDoubles]
    exact isSome_jsonForms_iff xs
  | .tuple xs => by
    rw [jsonForm, Option.isSome_map, innerDoubles]
    exact isSome_jsonForms_iff xs
  | .dictionary es => by
    rw [jsonForm, Option.isSome_map, innerDoubles]
    exact isSome_jsonFormsOfEntries_iff es
  | .double x => by
    rw [jsonForm, Double.isSome_jsonForm, innerDoubles]
    simp
  -- All other values hold no double and have a form.
  | .null => by simp [jsonForm, innerDoubles]
  | .bool _ => by simp [jsonForm, innerDoubles]
  | .int _ => by simp [jsonForm, innerDoubles]
  | .text _ => by simp [jsonForm, innerDoubles]
  | .label _ => by simp [jsonForm, innerDoubles]
  | .bytes _ => by simp [jsonForm, innerDoubles]
  | .moment _ => by simp [jsonForm, innerDoubles]
  | .date _ => by simp [jsonForm, innerDoubles]
  | .decimal _ => by simp [jsonForm, innerDoubles]
  | .uuid _ => by simp [jsonForm, innerDoubles]
  | .record _ _ => by simp [jsonForm, innerDoubles]

/-- The members of a list have forms just if all doubles in them are finite. -/
theorem isSome_jsonForms_iff : (xs : List Value) →
    ((allSome (jsonForms xs)).isSome = true ↔
      ∀ x ∈ innerDoublesOfList xs, x.isFinite = true)
  | [] => by simp [jsonForms, allSome, innerDoublesOfList]
  | x :: xs => by
    rw [jsonForms, isSome_allSome_cons, isSome_jsonForm_iff x, isSome_jsonForms_iff xs,
      innerDoublesOfList, List.forall_mem_append]

/-- The values of entries have forms just if all doubles in them are finite. -/
theorem isSome_jsonFormsOfEntries_iff : (es : List (Value × Value)) →
    ((allSome (jsonFormsOfEntries es)).isSome = true ↔
      ∀ x ∈ innerDoublesOfEntries es, x.isFinite = true)
  | [] => by simp [jsonFormsOfEntries, allSome, innerDoublesOfEntries]
  | (k, v) :: es => by
    rw [jsonFormsOfEntries, isSome_allSome_cons, Option.isSome_map, isSome_jsonForm_iff v,
      isSome_jsonFormsOfEntries_iff es, innerDoublesOfEntries, List.forall_mem_append]

end

end Value

end AccessGraph
