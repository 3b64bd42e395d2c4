import AccessGraph.Json.Encoder
import AccessGraph.Proofs.Outcome

/-!
# Keys without a JSON form

The only thing that can go wrong when a value is written as JSON is a dictionary key.
`Value.innerKeys` lists the keys of all dictionaries inside a value, in the order in which they are
written, and `Json.failure?_encode` says that writing fails on the first of them that has no JSON
form, and on nothing else.
-/

namespace AccessGraph

/-! ## Keys -/

namespace Value

/-- Whether a value has a JSON form as a key: texts, integers, doubles, truth values and null
have. -/
def isJsonKey : Value → Bool
  | .null | .bool _ | .int _ | .double _ | .text _ | .label _ => true
  | _ => false

mutual

/-- The keys of all dictionaries inside a value, through dictionaries, lists and tuples at any
depth: a key comes before the keys inside its value. -/
def innerKeys : Value → List Value
  | .list xs => innerKeysOfList xs
  | .tuple xs => innerKeysOfList xs
  | .dictionary es => innerKeysOfEntries es
  | _ => []

/-- The keys inside the members of a list. -/
def innerKeysOfList : List Value → List Value
  | [] => []
  | x :: xs => innerKeys x ++ innerKeysOfList xs

/-- The keys of a dictionary and those inside its values. -/
def innerKeysOfEntries : List (Value × Value) → List Value
  | [] => []
  | (k, v) :: es => k :: (innerKeys v ++ innerKeysOfEntries es)

end

/-- A value that does not count as present has no keys. -/
theorem innerKeys_eq_nil {v : Value} (h : v.isTruthy = false) : v.innerKeys = [] := by
  -- Of the values that hold others only empty ones are falsy.
  cases v with
  | list xs =>
    obtain rfl : xs = [] := by simpa [isTruthy] using h
    rfl
  | tuple xs =>
    obtain rfl : xs = [] := by simpa [isTruthy] using h
    rfl
  | dictionary es =>
    obtain rfl : es = [] := by simpa [isTruthy] using h
    rfl
  | _ => rfl

end Value

namespace Json

/-- The fault of the first key that has no JSON form. -/
def badKey? (keys : List Value) : Option BadKey :=
  (keys.find? fun k => !k.isJsonKey).map fun k => ⟨kindName k⟩

/-- The first bad key of two lists. -/
theorem badKey?_append (ks ls : List Value) :
    badKey? (ks ++ ls) = (badKey? ks).or (badKey? ls) := by
  rw [badKey?, List.find?_append, Option.map_or]
  rfl

/-- There is no bad key just if all can be keys. -/
theorem badKey?_eq_none_iff {ks : List Value} :
    badKey? ks = none ↔ ∀ k ∈ ks, k.isJsonKey = true := by
  simp [badKey?]

/-- A key fails alone when it has no JSON form. -/
private theorem failure?_keyText (k : Value) : failure? (keyText k) = badKey? [k] := by
  cases k <;> rfl

mutual

/-- Writing a value fails on the first key inside it that has no JSON form, and only there. -/
theorem failure?_encode : (v : Value) → failure? (encode v) = badKey? v.innerKeys
  | .list xs => by
    rw [encode, failure?_map, failure?_encodeList xs, Value.innerKeys]
  | .tuple xs => by
    rw [encode, failure?_map, failure?_encodeList xs, Value.innerKeys]
  | .dictionary es => by
    rw [encode, failure?_map, failure?_encodeEntries es, Value.innerKeys]
  -- All other values hold no key and never fail.
  | .null => rfl
  | .bool _ => rfl
  | .int _ => rfl
  | .double _ => rfl
  | .text _ => rfl
  | .bytes _ => rfl
  | .moment _ => rfl
  | .date _ => rfl
  | .decimal _ => rfl
  | .uuid _ => rfl
  | .label _ => rfl
  | .record _ _ => rfl

/-- A list fails with the first bad key among its members. -/
theorem failure?_encodeList :
    (xs : List Value) → failure? (encodeList xs) = badKey? (Value.innerKeysOfList xs)
  | [] => rfl
  | x :: xs => by
    -- The members after the first fail in the same way, whatever the text of the first is.
    rw [encodeList, Value.innerKeysOfList, badKey?_append, ← failure?_encode x,
      ← failure?_encodeList xs]
    refine failure?_bind fun _ => ?_
    rw [failure?_bind fun _ => failure?_pure _, Option.or_none]

/-- Entries fail with the first bad key of theirs, each entry's own key before those in its
value. -/
theorem failure?_encodeEntries :
    (es : List (Value × Value)) →
      failure? (encodeEntries es) = badKey? (Value.innerKeysOfEntries es)
  | [] => rfl
  | (k, v) :: es => by
    -- The key comes first, then its value, then the other entries.
    have hkeys : Value.innerKeysOfEntries ((k, v) :: es)
        = [k] ++ (v.innerKeys ++ Value.innerKeysOfEntries es) := by
      rw [Value.innerKeysOfEntries]; rfl
    rw [encodeEntries, hkeys, badKey?_append, badKey?_append, ← failure?_keyText,
      ← failure?_encode v, ← failure?_encodeEntries es]
    refine failure?_bind fun _ => failure?_bind fun _ => ?_
    rw [failure?_bind fun _ => failure?_pure _, Option.or_none]

end

end Json

end AccessGraph
