import AccessGraph.Proofs.Calendar.Zones
import AccessGraph.Proofs.Config.Reading
import Mathlib.Data.List.Nodup

/-!
# What the destination asks of a configuration

The tables that a graph is written to bound the length of names and descriptions and the rank of a
role, ask a permission on storage for its location, and check the order of validity windows.
`Conforms` states this for each configuration, without regard to how it is checked; the lemmas
`*.conforms_of_parse` say that whatever is accepted conforms, whether it was given as a dictionary,
as an instance or as an instance of another schema.
-/

namespace AccessGraph

/-! ## Constraints -/

/-- Both ends of a window, where it has both, are of one awareness, and it starts before it ends: at
an earlier instant, unless both ends are on one clock that is changed between them, and at a time
that is earlier on the clock that the ends share, if they do. -/
def ValidityWindow.Ordered (w : ValidityWindow) : Prop :=
  ∀ a ∈ w.validFrom, ∀ b ∈ w.validUntil, a.isAware = b.isAware ∧
    (a.Steady b → a.instant < b.instant) ∧ (a.zone = b.zone → a.wallMicros < b.wallMicros)

/-- No key stands twice in a table. -/
def Table.IsKeyed (t : Table) : Prop := (t.map Prod.fst).Nodup

/-- A name of 1 to `most` characters, a description of at most 500 characters unless it is absent,
and metadata. -/
structure Labelled (most : Nat) (name : String) (description : Option String) (metadata : Table) :
    Prop where
  name : 1 ≤ name.length ∧ name.length ≤ most
  description : ∀ s ∈ description, s.length ≤ 500
  metadata : Table.IsKeyed metadata

/-- The metadata names a bucket and a path. -/
def DataPermission.Located (p : DataPermission) : Prop :=
  ∀ key ∈ ["bucket_name", "path_pattern"], ∃ v, p.metadata.lookup key = some v ∧ v.isTruthy = true

/-- A permission on storage is located there. -/
def PermissionConfig.Conforms : PermissionConfig → Prop
  | .system p => Labelled 100 p.name p.description p.metadata
  | .data p =>
    Labelled 100 p.name p.description p.metadata ∧ (p.scope = .storage → p.Located)

/-- The configuration of a group within its bounds. -/
def GroupConfig.Conforms (c : GroupConfig) : Prop :=
  Labelled 100 c.name c.description c.metadata

/-- The configuration of a role within its bounds. -/
structure RoleConfig.Conforms (c : RoleConfig) : Prop where
  labelled : Labelled 50 c.name c.description c.metadata
  rank : 0 ≤ c.rank ∧ c.rank ≤ 100
  window : c.window.Ordered

/-- The attachment of a group within its bounds. -/
structure Assignment.Conforms (a : Assignment) : Prop where
  window : a.window.Ordered
  metadata : Table.IsKeyed a.metadata

/-- A grant or denial within its bounds. -/
structure Override.Conforms (o : Override) : Prop where
  permissionName : o.permissionName ≠ ""
  window : o.window.Ordered
  metadata : Table.IsKeyed o.metadata

/-- The configuration of an account. -/
def AccountConfig.Conforms (c : AccountConfig) : Prop := Table.IsKeyed c.metadata

/-! ## Fields -/

namespace Field

variable {α : Type}

/-- A field with a default gives the default where it is absent, or what its check gives. -/
theorem optional_eq_ok {es : Entries} {name : String} {default a : α} {check : Check α} :
    optional es name default check = .ok a ↔
      (Value.find? es name = none ∧ default = a) ∨
        ∃ v, Value.find? es name = some v ∧ check v = .ok a := by
  unfold optional
  cases hfind : Value.find? es name with
  | none => simp
  | some v => simp [Checked.under_eq_ok]

/-- What holds of the default and of everything that passes the check holds of the field. -/
theorem of_optional {p : α → Prop} {es : Entries} {name : String} {default a : α}
    {check : Check α} (hdefault : p default) (hcheck : ∀ v b, check v = .ok b → p b)
    (h : optional es name default check = .ok a) : p a := by
  rcases optional_eq_ok.mp h with ⟨-, rfl⟩ | ⟨v, -, hv⟩
  · exact hdefault
  · exact hcheck v a hv

/-- What a check makes sure of holds of whatever is given in place of null. -/
theorem of_nullable {p : α → Prop} {check : Check α} {v : Value} {o : Option α}
    (hcheck : ∀ v b, check v = .ok b → p b) (h : nullable check v = .ok o) : ∀ a ∈ o, p a := by
  unfold nullable at h
  split at h
  · obtain rfl := Checked.ok.inj h
    simp
  · cases hv : check v with
    | ok b =>
      obtain rfl : some b = o := by simpa [hv, Checked.map] using h
      simpa using hcheck v b hv
    | bad is => simp [hv, Checked.map] at h

/-- A bounded number is an integer within the bounds. -/
theorem boundedInt_eq_ok {least most : Int} {v : Value} {n : Int} :
    boundedInt least most v = .ok n ↔ v = .int n ∧ least ≤ n ∧ n ≤ most := by
  cases v with
  | int m =>
    rw [boundedInt]
    -- The lower bound is checked first, and only then the upper one.
    by_cases hleast : m < least
    · simp only [hleast, ↓reduceIte, Checked.fail, reduceCtorEq, Value.int.injEq, false_iff]
      omega
    · by_cases hmost : most < m
      · simp only [hleast, hmost, ↓reduceIte, Checked.fail, reduceCtorEq, Value.int.injEq,
          false_iff]
        omega
      · simp only [hleast, hmost, ↓reduceIte, Checked.ok.injEq, Value.int.injEq]
        omega
  | _ => simp [boundedInt, Checked.fail]

/-- A new entry has a text as its key, so the keys stay as they have to be. -/
private theorem isKeyed_insertText {t : Table} (h : Table.IsKeyed t) (k : String) (v : Value) :
    Table.IsKeyed (insertText t k v) := by
  unfold insertText
  split
  · -- An equal key keeps its place, so that the keys are as they were.
    have hkeys : (t.map fun e => if e.1 == k then (k, v) else e).map Prod.fst
        = t.map Prod.fst := by
      rw [List.map_map]
      refine List.map_congr_left fun e _ => ?_
      by_cases hk : e.1 = k
      · simp [hk]
      · simp [hk]
    rw [Table.IsKeyed, hkeys]
    exact h
  · next hnew =>
    have hfresh : k ∉ t.map Prod.fst := by
      intro hk
      obtain ⟨e, he, heq⟩ := List.mem_map.mp hk
      exact hnew (List.any_eq_true.mpr ⟨e, he, beq_iff_eq.mpr heq⟩)
    rw [Table.IsKeyed, List.map_append]
    exact List.concat_eq_append ▸ List.Nodup.concat hfresh h

/-- A table of which all keys were entered one after another has no key twice. -/
private theorem isKeyed_of_tableOf {es : Entries} {t u : Table} (ht : Table.IsKeyed t)
    (h : tableOf es t = .ok u) : Table.IsKeyed u := by
  induction es generalizing t with
  | nil =>
    obtain rfl := Checked.ok.inj h
    exact ht
  | cons e es ih =>
    obtain ⟨k, v⟩ := e
    rw [tableOf] at h
    split at h
    · exact ih (isKeyed_insertText ht _ v) h
    · -- A key that is no text fails, whatever the others are.
      cases hrest : tableOf es t <;> simp [hrest, Checked.both] at h

/-- A table that was read has texts as its keys. -/
theorem isKeyed_of_table {v : Value} {t : Table} (h : table v = .ok t) : Table.IsKeyed t := by
  unfold table at h
  split at h
  · exact isKeyed_of_tableOf (t := []) List.nodup_nil h
  · simp [Checked.fail] at h

end Field

/-- Metadata has texts as its keys, and so has its default. -/
theorem isKeyed_of_metadataField {es : Entries} {t : Table} (h : metadataField es = .ok t) :
    Table.IsKeyed t := by
  have hempty : Table.IsKeyed [] := List.nodup_nil
  unfold metadataField at h
  exact Field.of_optional hempty (fun _ _ => Field.isKeyed_of_table) h

/-- The fields that named configurations share. -/
private theorem labelled_of_fields {es : Entries} {most : Nat} {name : String}
    {description : Option String} {metadata : Table} (hname : nameField es most = .ok name)
    (hdescription : descriptionField es = .ok description)
    (hmetadata : metadataField es = .ok metadata) :
    Labelled most name description metadata := by
  obtain ⟨v, -, hv⟩ := Field.required_eq_ok.mp hname
  obtain ⟨-, hleast, hmost⟩ := Field.boundedText_eq_ok.mp hv
  refine ⟨⟨hleast, hmost most rfl⟩, ?_, isKeyed_of_metadataField hmetadata⟩
  -- An absent description and one that is null have no length to bound.
  refine Field.of_optional (p := fun o => ∀ s ∈ o, s.length ≤ 500) (by simp) ?_ hdescription
  intro w o ho
  refine Field.of_nullable (fun u s hs => ?_) ho
  exact (Field.boundedText_eq_ok.mp hs).2.2 500 rfl

/-! ## Checks of the whole -/

/-- A window has no fault just if it is in order. -/
theorem ValidityWindow.fault?_eq_none {w : ValidityWindow} : w.fault? = none ↔ w.Ordered := by
  obtain ⟨validFrom, validUntil⟩ := w
  cases validFrom with
  | none => simp [fault?, Ordered]
  | some a =>
    cases validUntil with
    | none => simp [fault?, Ordered]
    | some b =>
      -- With both ends there, they have to be comparable and then in order.
      simp only [Ordered, Option.mem_def, Option.some.injEq, forall_eq', ← Moment.isBefore_iff]
      by_cases haware : a.isAware = b.isAware
      · simp [fault?, haware]
      · simp [fault?, haware]

/-- A data permission has no fault just if one for storage has a location. -/
private theorem DataPermission.fault?_eq_none {p : DataPermission} :
    p.fault? = none ↔ (p.scope = .storage → p.Located) := by
  have htruthy : ∀ o : Option Value, (o.map Value.isTruthy).getD false = true ↔
      ∃ v, o = some v ∧ v.isTruthy = true := by
    intro o
    cases o <;> simp
  by_cases hscope : p.scope = .storage
  · simp only [fault?, hscope, ↓reduceIte, Option.map_eq_none_iff, List.find?_eq_none,
      Bool.not_eq_true, Bool.not_eq_false', htruthy, forall_const, Located]
  · simp [fault?, hscope]

/-! ## Accepted configurations -/

/-- A group that was read is within its constraints. -/
theorem GroupConfig.conforms_of_parse {v : Value} {c : GroupConfig} (h : parse v = .ok c) :
    c.Conforms := by
  obtain ⟨es, -, hread⟩ := Checked.andThen_eq_ok.mp (parse_eq v ▸ h)
  obtain ⟨hname, hdescription, hmetadata⟩ := read_eq_ok.mp hread
  exact labelled_of_fields hname hdescription hmetadata

theorem RoleConfig.conforms_of_parse {v : Value} {c : RoleConfig} (h : parse v = .ok c) :
    c.Conforms := by
  obtain ⟨es, -, hread⟩ := Checked.andThen_eq_ok.mp (parse_eq v ▸ h)
  obtain ⟨-, hname, hdescription, hrank, hmetadata, hfault⟩ := read_eq_ok.mp hread
  refine ⟨labelled_of_fields hname hdescription hmetadata, ?_,
    ValidityWindow.fault?_eq_none.mp hfault⟩
  exact Field.of_optional (p := fun n : Int => 0 ≤ n ∧ n ≤ 100) (by decide)
    (fun _ _ hn => (Field.boundedInt_eq_ok.mp hn).2) hrank

theorem Assignment.conforms_of_parse {v : Value} {a : Assignment} (h : parse v = .ok a) :
    a.Conforms := by
  obtain ⟨es, -, hread⟩ := Checked.andThen_eq_ok.mp (parse_eq v ▸ h)
  obtain ⟨-, -, hmetadata, hfault⟩ := read_eq_ok.mp hread
  exact ⟨ValidityWindow.fault?_eq_none.mp hfault, isKeyed_of_metadataField hmetadata⟩

theorem Override.conforms_of_parse {v : Value} {o : Override} (h : parse v = .ok o) :
    o.Conforms := by
  have hname := permissionName_ne_empty h
  obtain ⟨es, -, hread⟩ := Checked.andThen_eq_ok.mp (parse_eq v ▸ h)
  obtain ⟨-, -, -, hmetadata, hfault⟩ := read_eq_ok.mp hread
  exact ⟨hname, ValidityWindow.fault?_eq_none.mp hfault, isKeyed_of_metadataField hmetadata⟩

theorem AccountConfig.conforms_of_parse {v : Value} {c : AccountConfig} (h : parse v = .ok c) :
    c.Conforms := by
  obtain ⟨es, -, hread⟩ := Checked.andThen_eq_ok.mp (parse_eq v ▸ h)
  exact isKeyed_of_metadataField (read_eq_ok.mp hread)

/-- A permission that was read is within the constraints of its own schema. -/
theorem PermissionConfig.conforms_of_parse {v : Value} {c : PermissionConfig}
    (h : parse v = .ok c) : c.Conforms := by
  obtain ⟨es, hread⟩ := exists_read h
  rcases eq_of_read hread with ⟨p, hp, rfl⟩ | ⟨p, hp, rfl⟩
  · obtain ⟨-, hname, hdescription, -, -, hmetadata⟩ := SystemPermission.read_eq_ok.mp hp
    exact labelled_of_fields hname hdescription hmetadata
  · obtain ⟨-, hname, hdescription, -, -, -, -, -, -, -, hmetadata, hfault⟩ :=
      DataPermission.read_eq_ok.mp hp
    exact ⟨labelled_of_fields hname hdescription hmetadata,
      DataPermission.fault?_eq_none.mp hfault⟩

end AccessGraph
