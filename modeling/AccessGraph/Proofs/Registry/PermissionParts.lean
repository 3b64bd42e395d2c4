import AccessGraph.Proofs.Config.Instances
import AccessGraph.Proofs.Registry.Effects

/-!
# Permissions by their parts

A permission can be defined by its parts, some of which may be absent.  An absent part is passed on
as null or left out, but a field that may be null is checked alike either way
(`SameGiven.optional`).  So the entries that the parts make describe the same permission as a
dictionary, in any order, of just the parts that are there, or have the same issues in the same
order (`Registry.permission_by_parts`).
-/

namespace AccessGraph

/-! ## Parts that are given -/

/-- Whether a value is given, which null is not. -/
def Value.isGiven : Value → Bool
  | .null => false
  | _ => true

/-- The fields that are given are those that are not null. -/
private theorem givenFields_eq (t : Table) : givenFields t = t.filter fun f => f.2.isGiven := by
  refine List.filter_congr fun f _ => ?_
  obtain ⟨k, v⟩ := f
  cases v <;> rfl

private theorem givenFields_append (t u : Table) :
    givenFields (t ++ u) = givenFields t ++ givenFields u := List.filter_append ..

/-- All of the given fields are given. -/
private theorem givenFields_givenFields (t : Table) :
    givenFields (givenFields t) = givenFields t := by
  simp [givenFields]

/-- The given fields are in the order of the table. -/
private theorem sublist_givenFields (t : Table) : (givenFields t).Sublist t := List.filter_sublist

/-- The same fields are given in both entries, with the same values.  A field of one of the names
may be null in one of them and lacking in the other, every other field is there in both or in
neither. -/
structure SameGiven (names : List String) (es fs : Entries) : Prop where
  given : ∀ name,
    (Value.find? es name).filter Value.isGiven = (Value.find? fs name).filter Value.isGiven
  other : ∀ name ∉ names, Value.find? es name = Value.find? fs name

namespace SameGiven

variable {names : List String} {es fs : Entries}

/-- A required field that may not be null is checked alike. -/
theorem required {α : Type} {check : Field.Check α} (h : SameGiven names es fs) {name : String}
    (hname : name ∉ names) : Field.required es name check = Field.required fs name check :=
  Field.required_congr (h.other name hname)

/-- A field that may be null is checked alike whether it is null or lacking. -/
theorem optional {α : Type} {check : Field.Check α} (h : SameGiven names es fs) (name : String) :
    Field.optional es name none (Field.nullable check)
      = Field.optional fs name none (Field.nullable check) := by
  -- A field that may be null depends on what is given there, and null is not.
  have hgiven : ∀ es, Field.optional es name none (Field.nullable check)
      = ((Value.find? es name).filter Value.isGiven).elim (.ok none)
        fun v => ((check v).map some).under name := by
    intro es
    rw [Field.optional]
    cases Value.find? es name with
    | none => rfl
    | some v => cases v <;> rfl
  rw [hgiven, hgiven, h.given]

/-- Metadata that may not be null is checked alike. -/
private theorem metadataField (h : SameGiven names es fs) (hname : "metadata" ∉ names) :
    AccessGraph.metadataField es = AccessGraph.metadataField fs :=
  Field.optional_congr (h.other _ hname)

end SameGiven

/-- Tables of the same parts: in the first those of some names are passed on even if they are null,
in the second they are left out then. -/
private theorem sameGiven_of_perm {names : List String} {t u : Table} (front nullable back : Table)
    (ht : t.Perm (front ++ (nullable ++ givenFields back)))
    (hu : u.Perm (front ++ givenFields (nullable ++ back)))
    (hnodup : ((front ++ (nullable ++ back)).map Prod.fst).Nodup)
    (hnames : ∀ f ∈ nullable, f.1 ∈ names) :
    SameGiven names (Schema.entriesOf t) (Schema.entriesOf u) := by
  have htnodup : (t.map Prod.fst).Nodup := by
    refine (ht.map Prod.fst).nodup_iff.mpr (hnodup.sublist (List.Sublist.map _ ?_))
    exact (List.Sublist.refl _).append ((List.Sublist.refl _).append (sublist_givenFields back))
  have hunodup : (u.map Prod.fst).Nodup := by
    refine (hu.map Prod.fst).nodup_iff.mpr (hnodup.sublist (List.Sublist.map _ ?_))
    exact (List.Sublist.refl _).append (sublist_givenFields _)
  rw [givenFields_append] at hu
  constructor
  · intro name
    have hperm : (givenFields t).Perm (givenFields u) := by
      refine (ht.filter _).trans (.trans (.of_eq ?_) (hu.filter _).symm)
      show givenFields _ = givenFields _
      simp only [givenFields_append, givenFields_givenFields]
    rw [givenFields_eq, givenFields_eq] at hperm
    refine Option.ext fun v => ?_
    rw [Value.find?_entriesOf, Value.find?_entriesOf, Option.filter_eq_some_iff,
      Option.filter_eq_some_iff]
    exact and_congr_left fun hv => lookup_eq_some_iff_of_perm hperm htnodup hunodup hv
  · intro name hname
    -- Beside the given names the two tables have the same fields, null ones included.
    have hnone : ∀ v : Table, v.Sublist nullable → v.filter (fun f => f.1 ∉ names) = [] := by
      intro v hv
      rw [List.filter_eq_nil_iff]
      intro f hf
      simpa using hnames f (hv.subset hf)
    have hperm : (t.filter fun f => f.1 ∉ names).Perm (u.filter fun f => f.1 ∉ names) := by
      refine (ht.filter _).trans (.trans (.of_eq ?_) (hu.filter _).symm)
      simp only [List.filter_append, hnone _ (.refl _), hnone _ (sublist_givenFields nullable)]
    refine Option.ext fun v => ?_
    rw [Value.find?_entriesOf, Value.find?_entriesOf]
    exact lookup_eq_some_iff_of_perm hperm htnodup hunodup (by simpa using hname)

/-! ## Reading permissions -/

/-- The fields of a permission that may be null. -/
def PermissionConfig.nullableFields : List String :=
  ["description", "schema_name", "table_name", "column_name", "constraints", "conditions"]

section Reading

variable {es fs : Entries} (h : SameGiven PermissionConfig.nullableFields es fs)

include h

private theorem tag_of_sameGiven (expected : String) : tag es expected = tag fs expected :=
  h.required (by decide)

private theorem nameField_of_sameGiven (most : Nat) : nameField es most = nameField fs most :=
  h.required (by decide)

/-- The description is checked alike, whether it is null or left out. -/
private theorem descriptionField_of_sameGiven : descriptionField es = descriptionField fs :=
  h.optional "description"

/-- A system permission is read alike. -/
private theorem SystemPermission.read_of_sameGiven : read es = read fs := by
  have hresource : Field.required es "system_resource" (Field.word Resource.values Resource.text)
      = Field.required fs "system_resource" (Field.word Resource.values Resource.text) :=
    h.required (by decide)
  have haction : Field.required es "action" (Field.word Action.values Action.text)
      = Field.required fs "action" (Field.word Action.values Action.text) :=
    h.required (by decide)
  rw [read, read, tag_of_sameGiven h, nameField_of_sameGiven h, descriptionField_of_sameGiven h,
    hresource, haction, h.metadataField (by decide)]

private theorem DataPermission.read_of_sameGiven : read es = read fs := by
  -- Fields that may not be null are given or missing alike; the others may differ in nulls.
  have hscope : Field.required es "scope" (Field.word Scope.values Scope.text)
      = Field.required fs "scope" (Field.word Scope.values Scope.text) :=
    h.required (by decide)
  have haction : Field.required es "action" (Field.word Action.values Action.text)
      = Field.required fs "action" (Field.word Action.values Action.text) :=
    h.required (by decide)
  have hqualifier : ∀ name, qualifierField es name = qualifierField fs name := h.optional
  have htable : ∀ name, tableField es name = tableField fs name := h.optional
  rw [read, read, tag_of_sameGiven h, nameField_of_sameGiven h, descriptionField_of_sameGiven h,
    hscope, haction, h.metadataField (by decide)]
  simp only [hqualifier, htable]

/-- Entries in which the same fields are given describe the same permission, or have the same issues
in the same order. -/
private theorem PermissionConfig.read_of_sameGiven : read es = read fs := by
  have hselect : selectSchema es = selectSchema fs := by
    rw [selectSchema, selectSchema, h.other tagField (by decide)]
  rw [read, read, hselect, SystemPermission.read_of_sameGiven h,
    DataPermission.read_of_sameGiven h]

end Reading

/-! ## Definitions of the same permission -/

namespace Registry

/-- Two definitions that come to the same in a registry: they fail with the same error, or lead to
the same registry, where one and the same permission is new, which both of them describe. -/
structure Interchangeable (r : Registry) (d d' : Definition) : Prop where
  outcome : r.define d = r.define d'
  permission : ∀ t, r.define d = .ok t → ∃ p : Permission,
    d.described = .ok (p.id, .permission (.configured p)) ∧
      d'.described = .ok (p.id, .permission (.configured p)) ∧
      t.registrations .permission
        = r.registrations .permission ++ [(p.id.text, .permission (.configured p))]

/-- Permissions that are read alike are registered alike. -/
private theorem interchangeable_of_sameGiven (r : Registry) (id : Identifier) {t u : Table}
    (h : SameGiven PermissionConfig.nullableFields (Schema.entriesOf t) (Schema.entriesOf u)) :
    r.Interchangeable (.permission id (.ofTable t)) (.permission id (.ofTable u)) := by
  have hparse : PermissionConfig.parse (.ofTable t) = PermissionConfig.parse (.ofTable u) :=
    PermissionConfig.read_of_sameGiven h
  have hdescribed : (Definition.permission id (.ofTable t)).described
      = (Definition.permission id (.ofTable u)).described := by
    rw [Definition.described, Definition.described, hparse]
  refine ⟨by rw [define_eq, define_eq, hdescribed], fun s hs => ?_⟩
  -- For the second part it is enough that both describe the permission that was defined.
  rw [define_eq] at hs
  obtain ⟨x, hx, hregister⟩ := Except.bind_eq_ok.mp hs
  obtain ⟨c, -, hc⟩ := Except.bind_eq_ok.mp hx
  obtain rfl := Except.ok.inj hc
  obtain ⟨-, -, rfl⟩ := register_eq_ok.mp hregister
  exact ⟨⟨id, c⟩, hx, hdescribed ▸ hx, registrations_enter r id.text _ .permission⟩

end Registry

/-- The third of several members moved behind the two that follow. -/
private theorem perm_third_to_fifth {α : Type} (a b c d e : α) (rest : List α) :
    (a :: b :: c :: d :: e :: rest).Perm ([a, b, d, e] ++ c :: rest) :=
  .cons a (.cons b ((List.Perm.swap d c _).trans (.cons d (.swap e c rest))))

/-- A permission that is defined by its parts comes to the same as one that is defined by a
dictionary, in whatever order, of the tag, the parts that have to be there, and those others that
are not null. -/
theorem Registry.permission_by_parts (r : Registry) (id : Identifier) (t : Table) :
    (∀ resource action name description metadata : Value,
      t.Perm ([(tagField, .text "system"), ("name", name), ("system_resource", resource),
          ("action", action)]
        ++ givenFields [("description", description), ("metadata", metadata)]) →
      r.Interchangeable
        (.systemPermission id resource action name description metadata)
        (.permission id (.ofTable t))) ∧
    ∀ name scope action description schemaName tableName columnName constraints conditions
      metadata : Value,
      t.Perm ([(tagField, .text "data"), ("name", name), ("scope", scope), ("action", action)]
        ++ givenFields [("description", description), ("schema_name", schemaName),
          ("table_name", tableName), ("column_name", columnName), ("constraints", constraints),
          ("conditions", conditions), ("metadata", metadata)]) →
      r.Interchangeable
        (.dataPermission id name scope action description schemaName tableName columnName
          constraints conditions metadata)
        (.permission id (.ofTable t)) := by
  constructor
  · intro resource action name description metadata ht
    -- The entries stand in the order in which the parts are passed on, with the description third.
    have hnodup : [tagField, "name", "system_resource", "action", "description",
        "metadata"].Nodup := by decide
    refine interchangeable_of_sameGiven r id (sameGiven_of_perm _ [("description", description)]
      [("metadata", metadata)] (perm_third_to_fifth _ _ _ _ _ _) ht hnodup ?_)
    simp [PermissionConfig.nullableFields]
  · intro name scope action description schemaName tableName columnName constraints conditions
      metadata ht
    have hnodup : [tagField, "name", "scope", "action", "description", "schema_name", "table_name",
        "column_name", "constraints", "conditions", "metadata"].Nodup := by decide
    refine interchangeable_of_sameGiven r id (sameGiven_of_perm _
      [("description", description), ("schema_name", schemaName), ("table_name", tableName),
        ("column_name", columnName), ("constraints", constraints), ("conditions", conditions)]
      [("metadata", metadata)] (perm_third_to_fifth _ _ _ _ _ _) ht hnodup ?_)
    simp [PermissionConfig.nullableFields]

/-- The parts of a permission on the administration system, without description and metadata. -/
def accountParts : Table :=
  [("action", .text "select"), ("system_resource", .text "account"), ("name", .text "read"),
    (tagField, .text "system")]

/-- The parts of a permission on storage that lacks a location. -/
def storageParts : Table :=
  [("action", .text "select"), ("scope", .text "storage"), ("name", .text "files"),
    (tagField, .text "data")]

/-- A permission by its parts is the one that a dictionary describes; one without a location is
refused either way. -/
theorem Registry.permission_by_parts_sample :
    (∃ s p, (Registry.empty ⟨"access", "auth"⟩).define
        (.systemPermission "p" (.text "account") (.text "select") (.text "read") .null .null)
          = .ok s ∧
      (Registry.empty ⟨"access", "auth"⟩).define (.permission "p" (.ofTable accountParts))
        = .ok s ∧
      s.registrations .permission = [("p", .permission (.configured p))]) ∧
    ∃ e, (Registry.empty ⟨"access", "auth"⟩).define
        (.dataPermission "f" (.text "files") (.text "storage") (.text "select") .null .null .null
          .null .null .null .null) = .error e ∧
      (Registry.empty ⟨"access", "auth"⟩).define (.permission "f" (.ofTable storageParts))
        = .error e := by
  obtain ⟨hsystem, -⟩ := Registry.permission_by_parts (.empty ⟨"access", "auth"⟩) "p" accountParts
  obtain ⟨-, hdata⟩ := Registry.permission_by_parts (.empty ⟨"access", "auth"⟩) "f" storageParts
  -- The dictionaries list the parts backwards.
  obtain ⟨houtcome, hpermission⟩ := hsystem (.text "account") (.text "select") (.text "read")
    .null .null (List.reverse_perm accountParts).symm
  obtain ⟨houtcome', -⟩ := hdata (.text "files") (.text "storage") (.text "select") .null .null
    .null .null .null .null .null (List.reverse_perm storageParts).symm
  constructor
  · -- One outcome is computed, and the theorem gives the other.
    obtain ⟨s, hs⟩ : ∃ s, (Registry.empty ⟨"access", "auth"⟩).define (.permission "p"
        (.ofTable accountParts)) = .ok s := Except.exists_of_isOk (by decide +kernel)
    obtain ⟨p, hp, -, hregistrations⟩ := hpermission s (houtcome.trans hs)
    obtain ⟨hid, -⟩ := Definition.of_described hp
    rw [← Option.some.inj hid] at hregistrations
    exact ⟨s, p, houtcome.trans hs, hs, hregistrations⟩
  · -- A permission on storage needs a location, which neither form gives.
    have hnot : ((Registry.empty ⟨"access", "auth"⟩).define (.permission "f"
        (.ofTable storageParts))).isOk = false := by decide +kernel
    cases hfails : (Registry.empty ⟨"access", "auth"⟩).define (.permission "f"
      (.ofTable storageParts)) with
    | error e => exact ⟨e, houtcome'.trans hfails, rfl⟩
    | ok s =>
      rw [hfails] at hnot
      exact absurd hnot Bool.noConfusion

end AccessGraph
