/-!
# Stores

A store holds entities under distinct identifiers, in the order of their registration.  Its view is
the list of its entries; the lemmas say what each operation does to look-ups and to that list.
-/

namespace AccessGraph

/-- Entities under identifiers, oldest first. -/
structure Store (α : Type) where
  entries : List (String × α)

namespace Store

variable {α : Type}

/-- The store without entities. -/
def empty : Store α := ⟨[]⟩

/-- The entities, oldest first. -/
def toList (s : Store α) : List α := s.entries.map Prod.snd

/-- The identifiers under which entities are registered, oldest first. -/
def keys (s : Store α) : List String := s.entries.map Prod.fst

/-- The entity under an identifier. -/
def get? (s : Store α) (id : String) : Option α := s.entries.lookup id

/-- Whether an identifier is taken. -/
def contains (s : Store α) (id : String) : Bool := (s.get? id).isSome

/-- Adds an entity at the end. -/
def push (s : Store α) (id : String) (a : α) : Store α := ⟨s.entries ++ [(id, a)]⟩

/-- Changes the entity under an identifier in its place. -/
def modify (s : Store α) (id : String) (f : α → α) : Store α :=
  ⟨s.entries.map fun e => (e.1, if e.1 = id then f e.2 else e.2)⟩

/-- The number of entities. -/
def size (s : Store α) : Nat := s.entries.length

@[simp] theorem toList_push (s : Store α) (id : String) (a : α) :
    (s.push id a).toList = s.toList ++ [a] := by
  simp [push, toList]

/-- A modification changes a value and no identifier. -/
@[simp] theorem keys_modify (s : Store α) (id : String) (f : α → α) :
    (s.modify id f).keys = s.keys := by
  simp [modify, keys]

/-- A store contains what it has a key for. -/
theorem contains_iff_mem_keys (s : Store α) (id : String) :
    s.contains id = true ↔ id ∈ s.keys := by
  obtain ⟨es⟩ := s
  simp only [contains, get?, keys, List.lookup_isSome_iff, List.mem_map, beq_iff_eq]
  exact exists_congr fun e => and_congr_right fun _ => eq_comm

end Store

end AccessGraph
