import Mathlib.Data.List.Forall2
import Mathlib.Data.List.Nodup

/-!
# Lists

Facts about lists that several modules use: lists and sublists whose members are related in pairs,
look-ups in lists of pairs, members that are told apart by a key, and the front of a list up to a
test.
-/

namespace AccessGraph

open List (SublistForall₂)

/-! ## Related lists -/

section Related

variable {α β γ : Type} {R : α → β → Prop} {as : List α} {bs : List β}

/-- Each member of one of two related lists has a related one in the other. -/
theorem exists_of_forall₂ (h : as.Forall₂ R bs) {a : α} (ha : a ∈ as) : ∃ b ∈ bs, R a b := by
  induction h with
  | nil => exact absurd ha List.not_mem_nil
  | @cons a' b _ _ hab _ ih =>
    rcases List.mem_cons.mp ha with rfl | ha
    · exact ⟨b, List.mem_cons_self, hab⟩
    · obtain ⟨b', hb', hrel⟩ := ih ha
      exact ⟨b', List.mem_cons_of_mem b hb', hrel⟩

/-- What is told alike of the members of related lists. -/
theorem map_eq_of_forall₂ (h : as.Forall₂ R bs) {f : α → γ} {g : β → γ}
    (hfg : ∀ a b, R a b → g b = f a) : bs.map g = as.map f := by
  induction h with
  | nil => rfl
  | cons hab _ ih => rw [List.map_cons, List.map_cons, hfg _ _ hab, ih]

/-- Where a step gives lists related to themselves, so does the step on all members. -/
theorem forall₂_flatMap {R : β → β → Prop} {f : α → List β} (as : List α)
    (h : ∀ a, (f a).Forall₂ R (f a)) : (as.flatMap f).Forall₂ R (as.flatMap f) := by
  have has : as.Forall₂ Eq as := List.forall₂_refl as
  refine List.rel_flatMap has fun a b hab => ?_
  subst hab
  exact h a

/-- Where every member is mapped to something, the results stand in the places of the members. -/
theorem forall₂_filterMap {f : α → Option β} (h : ∀ a ∈ as, (f a).isSome = true) :
    as.Forall₂ (fun a b => a ∈ as ∧ f a = some b) (as.filterMap f) := by
  -- Membership is in the whole list, so the induction is on a part of it.
  suffices hpart : ∀ bs, bs ⊆ as →
      bs.Forall₂ (fun a b => a ∈ as ∧ f a = some b) (bs.filterMap f) from
    hpart as (List.Subset.refl as)
  intro bs
  induction bs with
  | nil => exact fun _ => .nil
  | cons a bs ih =>
    intro hsub
    obtain ⟨ha, hbs⟩ := List.cons_subset.mp hsub
    obtain ⟨b, hb⟩ := Option.isSome_iff_exists.mp (h a ha)
    rw [List.filterMap_cons_some hb]
    exact .cons ⟨ha, hb⟩ (ih hbs)

end Related

/-! ## Related sublists -/

section Sublists

variable {α β γ δ : Type} {R : α → β → Prop} {S : γ → δ → Prop} {as : List α} {bs : List β}

/-- A list is related to any that continues a related one. -/
theorem sublistForall₂_of_append {more : List α} (h : (as ++ more).Forall₂ R bs) :
    SublistForall₂ R as bs := by
  induction as generalizing bs with
  | nil => exact .nil
  | cons a as ih =>
    cases h with
    | cons hab h => exact .cons hab (ih h)

/-- Related sublists one behind the other. -/
theorem sublistForall₂_append {as' : List α} {bs' : List β} (h : SublistForall₂ R as bs)
    (h' : SublistForall₂ R as' bs') : SublistForall₂ R (as ++ as') (bs ++ bs') := by
  rw [List.sublistForall₂_iff] at h h' ⊢
  obtain ⟨xs, hxs, hsub⟩ := h
  obtain ⟨ys, hys, hsub'⟩ := h'
  exact ⟨xs ++ ys, List.rel_append hxs hys, hsub.append hsub'⟩

/-- Concatenations of related lists, for members of related lists. -/
theorem sublistForall₂_flatMap (h : SublistForall₂ R as bs) {f : α → List γ} {g : β → List δ}
    (hfg : ∀ a b, R a b → SublistForall₂ S (f a) (g b)) :
    SublistForall₂ S (as.flatMap f) (bs.flatMap g) := by
  induction h with
  | nil => exact .nil
  | cons hab _ ih => exact sublistForall₂_append (hfg _ _ hab) ih
  | @cons_right b as bs _ ih =>
    rw [List.sublistForall₂_iff] at ih ⊢
    obtain ⟨xs, hxs, hsub⟩ := ih
    exact ⟨xs, hxs, hsub.trans (List.sublist_append_right (g b) (bs.flatMap g))⟩

/-- Concatenations of sublists, for members of related lists. -/
theorem flatMap_sublist (h : SublistForall₂ R as bs) {f : α → List γ} {g : β → List γ}
    (hfg : ∀ a b, R a b → (f a).Sublist (g b)) : (as.flatMap f).Sublist (bs.flatMap g) := by
  induction h with
  | nil => exact List.nil_sublist _
  | cons hab _ ih => exact (hfg _ _ hab).append ih
  | @cons_right b as bs _ ih => exact ih.trans (List.sublist_append_right (g b) (bs.flatMap g))

/-- Related values, for members of related lists. -/
theorem sublistForall₂_map (h : SublistForall₂ R as bs) {f : α → γ} {g : β → δ}
    (hfg : ∀ a b, R a b → S (f a) (g b)) : SublistForall₂ S (as.map f) (bs.map g) := by
  induction h with
  | nil => exact .nil
  | cons hab _ ih => exact .cons (hfg _ _ hab) ih
  | cons_right _ ih => exact .cons_right ih

/-- A list that goes on, with related values for its members. -/
theorem sublistForall₂_map_append (as more : List α) {f : α → γ} {g : α → δ}
    (hfg : ∀ a, S (f a) (g a)) : SublistForall₂ S (as.map f) ((as ++ more).map g) := by
  induction as with
  | nil => exact .nil
  | cons a as ih => exact .cons (hfg a) ih

end Sublists

/-! ## Look-ups in lists of pairs -/

section Lookups

variable {α β : Type} {xs ys : List (String × α)}

/-- Under distinct names each name leads to what stands under it. -/
theorem lookup_of_nodup {x : String × α} (hnodup : (xs.map Prod.fst).Nodup) (h : x ∈ xs) :
    xs.lookup x.1 = some x.2 := by
  obtain ⟨before, after, rfl⟩ := List.append_of_mem h
  refine List.lookup_eq_some_iff.mpr ⟨before, after, rfl, fun y hy => ?_⟩
  -- The name stands in front of the member only if it stands there twice.
  rw [List.map_append, List.map_cons] at hnodup
  have hfresh := List.disjoint_of_nodup_append hnodup (List.mem_map_of_mem hy)
  exact bne_iff_ne.mpr fun heq => hfresh (List.mem_cons.mpr (.inl heq.symm))

/-- Under distinct names a look-up is membership. -/
theorem lookup_eq_some_iff_mem (hnodup : (xs.map Prod.fst).Nodup) {k : String} {v : α} :
    xs.lookup k = some v ↔ (k, v) ∈ xs := by
  constructor
  · intro h
    obtain ⟨before, after, rfl, -⟩ := List.lookup_eq_some_iff.mp h
    exact List.mem_append_right _ List.mem_cons_self
  · exact lookup_of_nodup hnodup

/-- Tables of distinct names that have the same members of some sort, in whatever order, agree on
look-ups of such members. -/
theorem lookup_eq_some_iff_of_perm {p : String × α → Bool} (h : (xs.filter p).Perm (ys.filter p))
    (hxs : (xs.map Prod.fst).Nodup) (hys : (ys.map Prod.fst).Nodup) {k : String} {v : α}
    (hp : p (k, v) = true) : xs.lookup k = some v ↔ ys.lookup k = some v := by
  have hmem := h.mem_iff (a := (k, v))
  simp only [List.mem_filter, hp, and_true] at hmem
  rw [lookup_eq_some_iff_mem hxs, lookup_eq_some_iff_mem hys, hmem]

/-- A look-up after the values were changed under their names. -/
theorem lookup_map_snd (g : String → α → α) (xs : List (String × α)) (k : String) :
    (xs.map fun x => (x.1, g x.1 x.2)).lookup k = (xs.lookup k).map (g k) := by
  induction xs with
  | nil => rfl
  | cons x xs ih =>
    obtain ⟨key, a⟩ := x
    simp only [List.map_cons, List.lookup_cons, ih]
    by_cases hkey : k = key
    · simp [hkey]
    · have hne : (k == key) = false := by simpa using hkey
      simp [hne]

/-- Under names that correspond without a clash, look-ups find related values or nothing at all. -/
theorem lookup_of_forall₂ {R : α → β → Prop} {g : String → String} (hg : Function.Injective g)
    {zs : List (String × β)} (h : xs.Forall₂ (fun x z => z.1 = g x.1 ∧ R x.2 z.2) zs)
    (k : String) : Option.Rel R (xs.lookup k) (zs.lookup (g k)) := by
  induction h with
  | nil => exact .none
  | @cons x z _ _ hxz _ ih =>
    -- As no two names become one, the comparisons come out alike.
    have hbeq : (g k == z.1) = (k == x.1) := by
      rw [hxz.1, Bool.eq_iff_iff, beq_iff_eq, beq_iff_eq, hg.eq_iff]
    rw [List.lookup_cons, List.lookup_cons, hbeq]
    cases k == x.1 with
    | true => exact .some hxz.2
    | false => exact ih

end Lookups

/-! ## Members told apart by a key -/

section Keys

variable {α β γ : Type} {as bs : List α} {a : α}

/-- What has distinct values on a list has distinct values with a new one at the end. -/
theorem nodup_map_concat {f : α → β} (h : (as.map f).Nodup) (ha : ∀ b ∈ as, f b ≠ f a) :
    ((as ++ [a]).map f).Nodup := by
  have hfresh : f a ∉ as.map f := by
    intro hmem
    obtain ⟨b, hb, heq⟩ := List.mem_map.mp hmem
    exact ha b hb heq
  simpa using h.concat hfresh

/-- What only one member of a list contributes to. -/
theorem flatMap_eq_of_nodup {f : α → List β} {g : α → γ} (hnodup : (as.map g).Nodup)
    (ha : a ∈ as) (hf : ∀ b ∈ as, g b ≠ g a → f b = []) : as.flatMap f = f a := by
  -- The member splits the list, and every other member has another value of `g`.
  obtain ⟨before, behind, rfl⟩ := List.append_of_mem ha
  rw [List.map_append, List.map_cons, List.nodup_append, List.nodup_cons] at hnodup
  obtain ⟨-, ⟨hbehind, -⟩, hbefore⟩ := hnodup
  have hleft : before.flatMap f = [] := by
    rw [List.flatMap_eq_nil_iff]
    intro b hb
    exact hf b (List.mem_append_left _ hb)
      (hbefore _ (List.mem_map_of_mem hb) _ List.mem_cons_self)
  have hright : behind.flatMap f = [] := by
    rw [List.flatMap_eq_nil_iff]
    intro b hb
    refine hf b (List.mem_append_right _ (List.mem_cons_of_mem _ hb)) fun heq => ?_
    exact hbehind (heq ▸ List.mem_map_of_mem hb)
  rw [List.flatMap_append, List.flatMap_cons, hleft, hright]
  simp

/-- What is found once in the first part of a list and not in the second has one position. -/
theorem exists_position {p : α → Bool} (has : as.filter p = [a]) (hbs : bs.filter p = []) :
    ∃ j < as.length, (as ++ bs)[j]? = some a ∧
      ∀ l b, (as ++ bs)[l]? = some b → (p b = true ↔ l = j) := by
  obtain ⟨before, behind, rfl, hbefore, ha, hbehind⟩ := List.filter_eq_cons_iff.mp has
  rw [List.filter_eq_nil_iff] at hbs hbehind
  -- The position is the number of members in front; nothing before or behind it is found.
  refine ⟨before.length, by simp, by simp, fun l b hb => ?_⟩
  rw [List.append_assoc, List.cons_append] at hb
  rcases Nat.lt_trichotomy l before.length with hl | rfl | hl
  · rw [List.getElem?_append_left hl] at hb
    have hnot := hbefore b (List.mem_of_getElem? hb)
    exact ⟨fun h => absurd h hnot, fun h => absurd h (Nat.ne_of_lt hl)⟩
  · have hb' : a = b := by simpa using hb
    subst hb'
    exact ⟨fun _ => rfl, fun _ => ha⟩
  · obtain ⟨m, rfl⟩ : ∃ m, l = before.length + (m + 1) := ⟨l - before.length - 1, by omega⟩
    rw [List.getElem?_append_right (Nat.le_add_right _ _), Nat.add_sub_cancel_left,
      List.getElem?_cons_succ] at hb
    have hnot : ¬ p b = true := by
      rcases List.mem_append.mp (List.mem_of_getElem? hb) with hmem | hmem
      · exact hbehind b hmem
      · exact hbs b hmem
    exact ⟨fun h => absurd h hnot, fun h => absurd h (by omega)⟩

end Keys

/-! ## The front of a list -/

section Fronts

variable {α β : Type}

/-- Searches for what the members give agree if they give the same. -/
theorem findSome?_congr {f g : α → Option β} {as : List α} (h : ∀ a ∈ as, f a = g a) :
    as.findSome? f = as.findSome? g := by
  rw [← List.head?_filterMap, List.filterMap_congr h, List.head?_filterMap]

/-- What satisfies a test up to a member that does not is what the test takes off the front. -/
theorem span_append {p : α → Bool} {as t : List α} (has : ∀ a ∈ as, p a = true)
    (ht : ∀ a, t.head? = some a → p a = false) :
    (as ++ t).takeWhile p = as ∧ (as ++ t).dropWhile p = t := by
  have hstop : t.takeWhile p = [] ∧ t.dropWhile p = t := by
    cases t with
    | nil => exact ⟨rfl, rfl⟩
    | cons a as => simp [ht a rfl]
  constructor
  · rw [List.takeWhile_append_of_pos has, hstop.1, List.append_nil]
  · rw [List.dropWhile_append_of_pos has, hstop.2]

/-- The first member of a list is that of its continuation only if the list is empty. -/
theorem head?_append_ne {as bs : List α} {a : α} (has : as.head? ≠ some a)
    (hbs : bs.head? ≠ some a) : (as ++ bs).head? ≠ some a := by
  cases as with
  | nil => exact hbs
  | cons b as => simpa using has

end Fronts

end AccessGraph
