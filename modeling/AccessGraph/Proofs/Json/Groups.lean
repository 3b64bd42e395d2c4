import AccessGraph.Proofs.Json.Reader
import Mathlib.Data.List.Forall2

/-!
# Groups of items in JSON text

The members of an array and those of an object are written with a comma and a space between them.
Whatever an item reads as, the whole group reads as the list of that, provided every item is read in
front of anything that does not go on with a number; if one of them is not read, neither is the
group (`group?_members`).
-/

namespace AccessGraph

/-- All the values, if each of them is there. -/
def allSome {α : Type} : List (Option α) → Option (List α)
  | [] => some []
  | w :: ws => w.bind fun x => (allSome ws).map (x :: ·)

/-- A list that starts with something is all there if the rest is. -/
theorem allSome_some {α : Type} (x : α) (ws : List (Option α)) :
    allSome (some x :: ws) = (allSome ws).map (x :: ·) := rfl

namespace Json

/-- Text that does not go on with a number. -/
def Ends (rest : List Char) : Prop := ∀ c, rest.head? = some c → isNumberChar c = false

/-- A number ends where the text does. -/
theorem ends_nil : Ends [] := by simp [Ends]

/-- A number ends before a character that is in no number. -/
private theorem ends_cons {c : Char} (hc : isNumberChar c = false) (cs : List Char) :
    Ends (c :: cs) := by
  intro d hd
  obtain rfl : c = d := by simpa using hd
  exact hc

/-- The text reads as the given item in front of anything that does not go on with a number; with
no item it is not read at all. -/
def Reads {α : Type} (item : List Char → Option (α × List Char)) (p : List Char) (w : Option α) :
    Prop :=
  ∀ rest, Ends rest → item (p ++ rest) = w.map fun x => (x, rest)

/-- A single member stands without a separator. -/
theorem members_singleton (p : List Char) : members [p] = p := by
  simp [members, List.intercalate]

/-- Between members stand a comma and a space. -/
theorem members_cons_cons (p q : List Char) (ps : List (List Char)) :
    members (p :: q :: ps) = p ++ ',' :: ' ' :: members (q :: ps) := by
  simp [members, List.intercalate]

/-- There is at most one member more than there are characters, as separators stand between
members. -/
private theorem length_le_members (ps : List (List Char)) :
    ps.length ≤ (members ps).length + 1 := by
  induction ps with
  | nil => simp
  | cons p ps ih =>
    cases ps with
    | nil => simp
    | cons q ps =>
      rw [members_cons_cons]
      simp only [List.length_cons, List.length_append] at ih ⊢
      omega

/-- A character is taken where it stands. -/
theorem token?_self {c : Char} (hc : isSpace c = false) (cs : List Char) :
    token? c (c :: cs) = some cs := by
  simp [token?, skip, hc]

/-- A character is not taken where another one stands. -/
private theorem token?_other {c d : Char} (hd : isSpace d = false) (hne : d ≠ c) (cs : List Char) :
    token? c (d :: cs) = none := by
  simp [token?, skip, hd, hne]

section Groups

variable {α : Type} {item : List Char → Option (α × List Char)} {close : Char}

/-- A space in front of members is passed over. -/
theorem items?_space (hspace : ∀ cs, item (' ' :: cs) = item cs) (count : Nat) (cs : List Char) :
    items? item close count (' ' :: cs) = items? item close count cs := by
  cases count with
  | zero => rfl
  | succ count => rw [items?, items?, hspace]

/-- A character that closes a group. -/
structure Closes (close : Char) : Prop where
  noNumber : isNumberChar close = false
  noSpace : isSpace close = false
  noComma : close ≠ ','

/-- The texts of items with commas between them read as the items. -/
theorem items?_members (hclose : Closes close) (hspace : ∀ cs, item (' ' :: cs) = item cs)
    {ps : List (List Char)} {ws : List (Option α)} (h : List.Forall₂ (Reads item) ps ws)
    (hne : ps ≠ []) {count : Nat} (hcount : ps.length ≤ count) (rest : List Char) :
    items? item close count (members ps ++ close :: rest)
      = (allSome ws).map fun xs => (xs, rest) := by
  induction h generalizing count with
  | nil => exact absurd rfl hne
  | @cons p w ps ws hp hps ih =>
    obtain ⟨k, rfl⟩ : ∃ k, count = k + 1 := ⟨count - 1, by simp at hcount; omega⟩
    cases hps with
    | nil =>
      -- Behind the last item stands the closing character.
      have hlast := hp (close :: rest) (ends_cons hclose.noNumber rest)
      rw [members_singleton, items?, hlast]
      cases w with
      | none => rfl
      | some x =>
        simp [token?_other hclose.noSpace hclose.noComma, token?_self hclose.noSpace, allSome]
    | @cons q w' ps ws hq hps =>
      have hfirst := hp (',' :: ' ' :: (members (q :: ps) ++ close :: rest))
        (ends_cons (by decide) _)
      have hk : (q :: ps).length ≤ k := by simpa using hcount
      have hothers := ih (by simp) hk
      have hcomma : isSpace ',' = false := by decide
      rw [members_cons_cons, List.append_assoc, List.cons_append, List.cons_append, items?, hfirst]
      cases w with
      | none => rfl
      | some x =>
        simp only [Option.map_some, Option.bind_eq_bind, Option.bind_some, token?_self hcomma,
          items?_space hspace, hothers]
        rw [allSome_some]
        cases allSome (w' :: ws) <;> rfl

/-- A text that starts with a character that neither is a space nor closes the group. -/
def Opens (close : Char) (p : List Char) : Prop :=
  ∃ c cs, p = c :: cs ∧ isSpace c = false ∧ c ≠ close

/-- The texts of any number of items read as the items. -/
theorem group?_members (hclose : Closes close) (hspace : ∀ cs, item (' ' :: cs) = item cs)
    {ps : List (List Char)} {ws : List (Option α)} (h : List.Forall₂ (Reads item) ps ws)
    (hopen : ∀ p ∈ ps, Opens close p) (rest : List Char) :
    group? item close (members ps ++ close :: rest) = (allSome ws).map fun xs => (xs, rest) := by
  cases ps with
  | nil =>
    cases h
    have hnil : members [] ++ close :: rest = close :: rest := rfl
    rw [group?, hnil, token?_self hclose.noSpace]
    rfl
  | cons p ps =>
    obtain ⟨c, cs, rfl, hc, hne⟩ := hopen p List.mem_cons_self
    -- The first item does not close the group, so that the items are read.
    have hnone : token? close (members ((c :: cs) :: ps) ++ close :: rest) = none := by
      cases ps with
      | nil =>
        rw [members_singleton]
        exact token?_other hc hne _
      | cons q ps =>
        rw [members_cons_cons]
        exact token?_other hc hne _
    have hlength := length_le_members ((c :: cs) :: ps)
    rw [group?, hnone]
    refine items?_members hclose hspace h (by simp) ?_ rest
    rw [List.length_append, List.length_cons (a := close)]
    omega

end Groups

end Json

end AccessGraph
