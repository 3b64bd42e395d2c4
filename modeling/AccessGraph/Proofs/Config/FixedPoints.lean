import AccessGraph.Proofs.Config.Instances

/-!
# Accepted configurations are fixed points

Each check of a field returns a value that passes the same check and is returned by it again, and
the default of a field passes it too.  So a configuration is read again from its own fields, whether
those that were given or all of them, and nothing changes
(`SchemaChoice.accepted_is_fixed_point`).
-/

namespace AccessGraph

/-! ## Entries that restate a configuration -/

/-- The second entries hold the value under the name, or nothing where the first hold nothing. -/
def RestatesAt (es fs : Entries) (name : String) (v : Value) : Prop :=
  Value.find? fs name = some v ∨ Value.find? fs name = none ∧ Value.find? es name = none

/-- The second entries restate the fields of what was read from the first ones. -/
def Restates (es fs : Entries) (fields : Table) : Prop :=
  ∀ f ∈ fields, RestatesAt es fs f.1 f.2

/-- Each of the restated fields is restated. -/
theorem Restates.field {es fs : Entries} {fields : Table} (h : Restates es fs fields)
    {name : String} {v : Value} (hmem : (name, v) ∈ fields) : RestatesAt es fs name v := h _ hmem

/-- What is restated part by part. -/
private theorem Restates.append {es fs : Entries} {t u : Table} (h : Restates es fs (t ++ u)) :
    Restates es fs t ∧ Restates es fs u :=
  ⟨fun f hf => h f (List.mem_append_left u hf), fun f hf => h f (List.mem_append_right t hf)⟩

namespace Field

variable {α : Type} {es fs : Entries} {name : String}

/-- A field that is restated with what its check gives back is read again. -/
theorem required_again {a : α} {check : Check α} {v : Value}
    (h : required es name check = .ok a) (hagain : check v = .ok a)
    (hv : RestatesAt es fs name v) : required fs name check = .ok a := by
  obtain ⟨w, hw, -⟩ := required_eq_ok.mp h
  rcases hv with hv | ⟨-, hnone⟩
  · exact required_eq_ok.mpr ⟨v, hv, hagain⟩
  · simp [hnone] at hw

/-- The same of a field with a default: where it was absent it stays absent. -/
theorem optional_again {a default : α} {check : Check α} {v : Value}
    (h : optional es name default check = .ok a) (hagain : check v = .ok a)
    (hv : RestatesAt es fs name v) : optional fs name default check = .ok a := by
  rcases hv with hv | ⟨hv, hnone⟩
  · exact optional_eq_ok.mpr (.inr ⟨v, hv, hagain⟩)
  · rcases optional_eq_ok.mp h with ⟨-, rfl⟩ | ⟨w, hw, -⟩
    · exact optional_eq_ok.mpr (.inl ⟨hv, rfl⟩)
    · simp [hnone] at hw

/-- A value that may be absent is returned again if the check returns what is there again. -/
private theorem nullable_elim {check : Check α} {render : α → Value}
    (hrender : ∀ a, render a ≠ .null)
    {o : Option α} (hagain : ∀ a ∈ o, check (render a) = .ok a) :
    nullable check (o.elim .null render) = .ok o := by
  cases o with
  | none => rfl
  | some a =>
    rw [Option.elim_some, nullable_of_ne_null (hrender a), hagain a rfl]
    rfl

/-- A text within its bounds is within them when it is given as a text. -/
private theorem boundedText_text {least : Nat} {most : Option Nat} {v : Value} {s : String}
    (h : boundedText least most v = .ok s) : boundedText least most (.text s) = .ok s :=
  boundedText_eq_ok.mpr ⟨rfl, (boundedText_eq_ok.mp h).2⟩

/-- A table is read from its entries, behind what was read before. -/
private theorem tableOf_entriesOf {t u : Table} (h : Table.IsKeyed (u ++ t)) :
    tableOf (Schema.entriesOf t) u = .ok (u ++ t) := by
  induction t generalizing u with
  | nil => simp [Schema.entriesOf, tableOf]
  | cons f t ih =>
    obtain ⟨k, v⟩ := f
    -- The key is new, so that it comes last.
    have hnew : u.any (·.1 == k) = false := by
      rw [Table.IsKeyed, List.map_append] at h
      refine Bool.eq_false_iff.mpr fun hany => ?_
      obtain ⟨e, he, hkey⟩ := List.any_eq_true.mp hany
      exact List.disjoint_of_nodup_append h (List.mem_map_of_mem he)
        (by simp [beq_iff_eq.mp hkey])
    have hinsert : insertText u k v = u ++ [(k, v)] := by
      rw [insertText, hnew]
      rfl
    show tableOf (Schema.entriesOf t) (insertText u k v) = _
    rw [hinsert, ih (by simpa using h), List.append_assoc]
    rfl

/-- A table is read back from the dictionary of its entries. -/
private theorem table_ofTable {t : Table} (h : Table.IsKeyed t) : table (.ofTable t) = .ok t :=
  tableOf_entriesOf (u := []) h

/-- A word is read back from its own label. -/
private theorem word_label {values : List α} {wordText : α → String} {l : Label} {a : α}
    (h : values.find? (wordText · == l.text) = some a) :
    word values wordText (.label l) = .ok a := by
  simp [word, text, h]

private theorem word_resource (r : Resource) :
    word Resource.values Resource.text (.label (.resource r)) = .ok r :=
  word_label (by cases r <;> decide)

private theorem word_action (a : Action) :
    word Action.values Action.text (.label (.action a)) = .ok a :=
  word_label (by cases a <;> decide)

private theorem word_scope (s : Scope) : word Scope.values Scope.text (.label (.scope s)) = .ok s :=
  word_label (by cases s <;> decide)

end Field

/-! ## Fields that configurations share -/

section

variable {es fs : Entries}

/-- A name that is restated is read again. -/
theorem nameField_again {most : Nat} {s : String} (h : nameField es most = .ok s)
    (hv : RestatesAt es fs "name" (.text s)) : nameField fs most = .ok s := by
  obtain ⟨v, -, hcheck⟩ := Field.required_eq_ok.mp h
  exact Field.required_again h (Field.boundedText_text hcheck) hv

/-- A description that is restated, by null if there is none, is read again. -/
theorem descriptionField_again {o : Option String} (h : descriptionField es = .ok o)
    (hv : RestatesAt es fs "description" (optionText o)) : descriptionField fs = .ok o := by
  refine Field.optional_again h (Field.nullable_elim (by simp) ?_) hv
  refine Field.of_optional (p := fun o => ∀ s ∈ o, Field.boundedText 0 (some 500) (.text s) = .ok s)
    (by simp) (fun v b hb => ?_) h
  exact Field.of_nullable (fun w s hs => Field.boundedText_text hs) hb

/-- A qualifier that is restated, by null if there is none, is read again. -/
theorem qualifierField_again {field : String} {o : Option String}
    (h : qualifierField es field = .ok o) (hv : RestatesAt es fs field (optionText o)) :
    qualifierField fs field = .ok o :=
  Field.optional_again h (Field.nullable_elim (by simp) fun _ _ => rfl) hv

/-- Metadata that is restated is read again. -/
theorem metadataField_again {t : Table} (h : metadataField es = .ok t)
    (hv : RestatesAt es fs "metadata" (.ofTable t)) : metadataField fs = .ok t :=
  Field.optional_again h (Field.table_ofTable (isKeyed_of_metadataField h)) hv

/-- A table that is restated, by null if there is none, is read again. -/
theorem tableField_again {field : String} {o : Option Table} (h : tableField es field = .ok o)
    (hv : RestatesAt es fs field (optionTable o)) : tableField fs field = .ok o := by
  refine Field.optional_again h (Field.nullable_elim (by simp [Value.ofTable]) ?_) hv
  refine Field.of_optional (p := fun o => ∀ t ∈ o, Field.table (.ofTable t) = .ok t)
    (by simp) (fun v b hb => ?_) h
  exact Field.of_nullable (fun w t ht => Field.table_ofTable (Field.isKeyed_of_table ht)) hb

/-- A tag that is restated is taken again. -/
private theorem tag_again {expected : String} (h : tag es expected = .ok ())
    (hv : RestatesAt es fs tagField (.text expected)) : tag fs expected = .ok () :=
  Field.required_again h (if_pos rfl) hv

/-- The ends of a window are read again from its fields. -/
theorem ValidityWindow.ends_again {w : ValidityWindow} (h : ends es = .ok w)
    (hs : Restates es fs w.fields) : ends fs = .ok w := by
  obtain ⟨hfrom, huntil⟩ := ends_eq_ok.mp h
  have hagain : ∀ o : Option Moment,
      Field.nullable Field.moment (o.elim .null .moment) = .ok o := fun o =>
    Field.nullable_elim (by simp) fun _ _ => rfl
  exact ends_eq_ok.mpr ⟨Field.optional_again hfrom (hagain _) (hs.field (by simp [fields])),
    Field.optional_again huntil (hagain _) (hs.field (by simp [fields]))⟩

end

/-! ## Configurations -/

section

variable {es fs : Entries}

/-- A window is read again from its fields. -/
theorem ValidityWindow.read_again {w : ValidityWindow} (h : read es = .ok w)
    (hs : Restates es fs w.fields) : read fs = .ok w := by
  obtain ⟨hends, hfault⟩ := read_eq_ok.mp h
  exact read_eq_ok.mpr ⟨ends_again hends hs, hfault⟩

/-- An account is read again from its fields. -/
theorem AccountConfig.read_again {c : AccountConfig} (h : read es = .ok c)
    (hs : Restates es fs c.fields) : read fs = .ok c :=
  read_eq_ok.mpr (metadataField_again (read_eq_ok.mp h) (hs.field (by simp [fields])))

/-- An override is read again from its fields. -/
theorem Override.read_again {o : Override} (h : read es = .ok o)
    (hs : Restates es fs o.fields) : read fs = .ok o := by
  obtain ⟨hwindow, hname, hgrant, hmetadata, hfault⟩ := read_eq_ok.mp h
  obtain ⟨hends, hrest⟩ := hs.append
  obtain ⟨v, -, hcheck⟩ := Field.required_eq_ok.mp hname
  exact read_eq_ok.mpr ⟨ValidityWindow.ends_again hwindow hends,
    Field.required_again hname (Field.boundedText_text hcheck) (hrest.field (by simp)),
    Field.required_again hgrant (v := .bool o.isGrant) rfl (hrest.field (by simp)),
    metadataField_again hmetadata (hrest.field (by simp)), hfault⟩

/-- A group is read again from its fields. -/
theorem GroupConfig.read_again {c : GroupConfig} (h : read es = .ok c)
    (hs : Restates es fs c.fields) : read fs = .ok c := by
  obtain ⟨hname, hdescription, hmetadata⟩ := read_eq_ok.mp h
  exact read_eq_ok.mpr ⟨nameField_again hname (hs.field (by simp [fields])),
    descriptionField_again hdescription (hs.field (by simp [fields])),
    metadataField_again hmetadata (hs.field (by simp [fields]))⟩

/-- A role is read again from its fields. -/
theorem RoleConfig.read_again {c : RoleConfig} (h : read es = .ok c)
    (hs : Restates es fs c.fields) : read fs = .ok c := by
  obtain ⟨hwindow, hname, hdescription, hrank, hmetadata, hfault⟩ := read_eq_ok.mp h
  obtain ⟨hends, hrest⟩ := hs.append
  -- The default of the rank is within its bounds.
  have hbounds : 0 ≤ c.rank ∧ c.rank ≤ 100 :=
    Field.of_optional (p := fun n : Int => 0 ≤ n ∧ n ≤ 100) (by decide)
      (fun _ _ hn => (Field.boundedInt_eq_ok.mp hn).2) hrank
  exact read_eq_ok.mpr ⟨ValidityWindow.ends_again hwindow hends,
    nameField_again hname (hrest.field (by simp)),
    descriptionField_again hdescription (hrest.field (by simp)),
    Field.optional_again hrank (Field.boundedInt_eq_ok.mpr ⟨rfl, hbounds⟩) (hrest.field (by simp)),
    metadataField_again hmetadata (hrest.field (by simp)), hfault⟩

/-- A role assignment is read again from its fields. -/
theorem Assignment.read_again {a : Assignment} (h : read es = .ok a)
    (hs : Restates es fs a.fields) : read fs = .ok a := by
  obtain ⟨hwindow, hgroup, hmetadata, hfault⟩ := read_eq_ok.mp h
  obtain ⟨hends, hrest⟩ := hs.append
  exact read_eq_ok.mpr ⟨ValidityWindow.ends_again hwindow hends,
    Field.required_again hgroup (v := .text a.groupId) rfl (hrest.field (by simp)),
    metadataField_again hmetadata (hrest.field (by simp)), hfault⟩

/-- A system permission is read again from its fields. -/
theorem SystemPermission.read_again {p : SystemPermission} (h : read es = .ok p)
    (hs : Restates es fs p.fields) : read fs = .ok p := by
  obtain ⟨htag, hname, hdescription, hresource, haction, hmetadata⟩ := read_eq_ok.mp h
  exact read_eq_ok.mpr ⟨tag_again htag (hs.field (by simp [fields])),
    nameField_again hname (hs.field (by simp [fields])),
    descriptionField_again hdescription (hs.field (by simp [fields])),
    Field.required_again hresource (Field.word_resource _) (hs.field (by simp [fields])),
    Field.required_again haction (Field.word_action _) (hs.field (by simp [fields])),
    metadataField_again hmetadata (hs.field (by simp [fields]))⟩

/-- A data permission is read again from its fields. -/
theorem DataPermission.read_again {p : DataPermission} (h : read es = .ok p)
    (hs : Restates es fs p.fields) : read fs = .ok p := by
  -- Every field is restated under its own name, and the location is looked at in what was read.
  obtain ⟨htag, hname, hdescription, hscope, haction, hschema, htable, hcolumn, hconstraints,
    hconditions, hmetadata, hfault⟩ := read_eq_ok.mp h
  exact read_eq_ok.mpr ⟨tag_again htag (hs.field (by simp [fields])),
    nameField_again hname (hs.field (by simp [fields])),
    descriptionField_again hdescription (hs.field (by simp [fields])),
    Field.required_again hscope (Field.word_scope _) (hs.field (by simp [fields])),
    Field.required_again haction (Field.word_action _) (hs.field (by simp [fields])),
    qualifierField_again hschema (hs.field (by simp [fields])),
    qualifierField_again htable (hs.field (by simp [fields])),
    qualifierField_again hcolumn (hs.field (by simp [fields])),
    tableField_again hconstraints (hs.field (by simp [fields])),
    tableField_again hconditions (hs.field (by simp [fields])),
    metadataField_again hmetadata (hs.field (by simp [fields])), hfault⟩

/-- A configuration is read again from entries that restate its fields. -/
theorem Schema.readConfig_again {s : Schema} {c : Config} (h : s.readConfig es = .ok c)
    (hs : Restates es fs c.fields) : s.readConfig fs = .ok c := by
  cases s <;> obtain ⟨x, hx, rfl⟩ := Checked.map_eq_ok.mp h
  case window => exact Checked.map_eq_ok.mpr ⟨x, ValidityWindow.read_again hx hs, rfl⟩
  case account => exact Checked.map_eq_ok.mpr ⟨x, AccountConfig.read_again hx hs, rfl⟩
  case override => exact Checked.map_eq_ok.mpr ⟨x, Override.read_again hx hs, rfl⟩
  case group => exact Checked.map_eq_ok.mpr ⟨x, GroupConfig.read_again hx hs, rfl⟩
  case role => exact Checked.map_eq_ok.mpr ⟨x, RoleConfig.read_again hx hs, rfl⟩
  case assignment => exact Checked.map_eq_ok.mpr ⟨x, Assignment.read_again hx hs, rfl⟩
  case systemPermission => exact Checked.map_eq_ok.mpr ⟨x, SystemPermission.read_again hx hs, rfl⟩
  case dataPermission => exact Checked.map_eq_ok.mpr ⟨x, DataPermission.read_again hx hs, rfl⟩

end

/-! ## Nested instances -/

namespace Value

mutual

/-- Whether an instance of a schema stands somewhere in the value. -/
def holdsInstance : Value → Bool
  | .list xs => anyHoldsInstance xs
  | .tuple xs => anyHoldsInstance xs
  | .dictionary es => entriesHoldInstance es
  | .record _ _ => true
  | _ => false

/-- `holdsInstance` for the members of a list. -/
def anyHoldsInstance : List Value → Bool
  | [] => false
  | x :: xs => holdsInstance x || anyHoldsInstance xs

/-- `holdsInstance` for the values of entries. -/
def entriesHoldInstance : List (Value × Value) → Bool
  | [] => false
  | (_, v) :: es => holdsInstance v || entriesHoldInstance es

end

mutual

/-- Without an instance in it a value has nothing to unfold. -/
private theorem unfolded_eq_self : (v : Value) → v.holdsInstance = false → v.unfolded = v
  | .list xs, h => by
    rw [unfolded, unfoldedList_eq_self xs h]
  | .tuple xs, h => by
    rw [unfolded, unfoldedList_eq_self xs h]
  | .dictionary es, h => by
    rw [unfolded, unfoldedEntries_eq_self es h]
  -- What is an instance itself holds one.
  | .record _ _, h => by simp [holdsInstance] at h
  | .null, _ => rfl
  | .bool _, _ => rfl
  | .int _, _ => rfl
  | .double _, _ => rfl
  | .text _, _ => rfl
  | .bytes _, _ => rfl
  | .moment _, _ => rfl
  | .date _, _ => rfl
  | .decimal _, _ => rfl
  | .uuid _, _ => rfl
  | .label _, _ => rfl

/-- A list that holds no instance has none to unfold. -/
theorem unfoldedList_eq_self :
    (xs : List Value) → anyHoldsInstance xs = false → unfoldedList xs = xs
  | [], _ => rfl
  | x :: xs, h => by
    obtain ⟨hx, hxs⟩ := Bool.or_eq_false_iff.mp h
    rw [unfoldedList, unfolded_eq_self x hx, unfoldedList_eq_self xs hxs]

/-- Entries that hold no instance have none to unfold. -/
theorem unfoldedEntries_eq_self :
    (es : List (Value × Value)) → entriesHoldInstance es = false → unfoldedEntries es = es
  | [], _ => rfl
  | (k, v) :: es, h => by
    obtain ⟨hv, hes⟩ := Bool.or_eq_false_iff.mp h
    rw [unfoldedEntries, unfolded_eq_self v hv, unfoldedEntries_eq_self es hes]

end

/-- Fields that hold no instance are written as they are. -/
private theorem unfoldedFields_eq_entriesOf {t : Table} (h : ∀ f ∈ t, f.2.holdsInstance = false) :
    unfoldedFields t = Schema.entriesOf t := by
  induction t with
  | nil => rfl
  | cons f t ih =>
    obtain ⟨k, v⟩ := f
    have hv := unfolded_eq_self v (h (k, v) List.mem_cons_self)
    rw [unfoldedFields, hv, ih fun f hf => h f (List.mem_cons_of_mem _ hf)]
    rfl

end Value

/-! ## Instances -/

namespace Instance

/-- The given fields with their values. -/
def setFields (i : Instance) : Table := i.config.fields.filter fun f => i.given.contains f.1

/-- No instance of a schema is nested inside a field. -/
def IsFlat (i : Instance) : Prop := ∀ f ∈ i.config.fields, f.2.holdsInstance = false

/-- The fields that were set on a flat instance hold no instance. -/
private theorem IsFlat.setFields {i : Instance} (h : i.IsFlat) :
    ∀ f ∈ i.setFields, f.2.holdsInstance = false := fun f hf => h f (List.mem_of_mem_filter hf)

/-- A field is among those that were set if it was given. -/
private theorem find?_setFields {i : Instance} {f : String × Value} (h : f ∈ i.config.fields) :
    Value.find? (Schema.entriesOf i.setFields) f.1
      = if i.given.contains f.1 then some f.2 else none := by
  rw [Value.find?_entriesOf, Instance.setFields, lookup_filter_fst i.config.fields i.given.contains,
    Config.lookup_fields h]

end Instance

namespace Schema

variable {s : Schema} {es : Entries} {i : Instance}

/-- All fields of an instance restate what it was read from. -/
private theorem restates_fields : Restates es (entriesOf i.config.fields) i.config.fields := by
  intro f hf
  rw [RestatesAt, Value.find?_entriesOf, Config.lookup_fields hf]
  exact .inl rfl

/-- A field that was not given is not among the entries. -/
private theorem restates_setFields (h : s.read es = .ok i) :
    Restates es (entriesOf i.setFields) i.config.fields := by
  intro f hf
  obtain ⟨hconfig, hgiven⟩ := read_eq_ok.mp h
  rw [RestatesAt, Instance.find?_setFields hf]
  by_cases hmem : f.1 ∈ i.given
  · simp [hmem]
  · -- A field that was not given is absent again, and so has its default again.
    right
    have hname : f.1 ∈ s.fieldNames := by
      rw [← schema_of_readConfig hconfig, ← Config.names_fields]
      exact List.mem_map_of_mem hf
    simpa [hgiven, hname] using hmem

/-- The given fields of an instance are read as that instance. -/
private theorem read_setFields (h : s.read es = .ok i) :
    s.read (entriesOf i.setFields) = .ok i := by
  obtain ⟨hconfig, hgiven⟩ := read_eq_ok.mp h
  refine read_eq_ok.mpr ⟨readConfig_again hconfig (restates_setFields h), ?_⟩
  -- Of the fields those that were given are found again.
  have hfound : ∀ f ∈ s.fieldNames,
      (Value.find? (entriesOf i.setFields) f).isSome = i.given.contains f := by
    intro f hf
    rw [← schema_of_readConfig hconfig, ← Config.names_fields] at hf
    obtain ⟨x, hx, rfl⟩ := List.mem_map.mp hf
    rw [Instance.find?_setFields hx]
    split <;> simp_all
  rw [List.filter_congr hfound, hgiven]
  refine List.filter_congr fun f hf => ?_
  rw [Bool.eq_iff_iff]
  simp [hf]

/-- A window in front of other fields is read without them as well. -/
private theorem readConfig_window {fs : Entries} {w : ValidityWindow} {rest : Table}
    (hends : ValidityWindow.ends es = .ok w) (hfault : w.fault? = none)
    (hs : Restates es fs (w.fields ++ rest)) :
    ∃ d, Schema.window.readConfig fs = .ok d ∧
      ∀ f ∈ windowFields, d.fields.lookup f = (w.fields ++ rest).lookup f := by
  have hread : ValidityWindow.read fs = .ok w :=
    ValidityWindow.read_eq_ok.mpr ⟨ValidityWindow.ends_again hends hs.append.1, hfault⟩
  refine ⟨.window w, Checked.map_eq_ok.mpr ⟨w, hread, rfl⟩, fun f hf => ?_⟩
  simp only [windowFields, List.mem_cons, List.not_mem_nil, or_false] at hf
  rcases hf with rfl | rfl <;> rfl

/-- A configuration of a schema that extends another one is read by that one as well, with the
fields that they share. -/
private theorem readConfig_of_isA {t : Schema} {fs : Entries} {c : Config} (hst : s.isA t = true)
    (h : s.readConfig es = .ok c) (hs : Restates es fs c.fields) :
    ∃ d, t.readConfig fs = .ok d ∧ (∀ f ∈ t.fieldNames, d.fields.lookup f = c.fields.lookup f) ∧
      (t = s → d = c) := by
  -- Beside itself a schema extends only that of windows, whose fields stand in front of its own.
  rcases isA_iff.mp hst with rfl | ⟨rfl, rfl | rfl | rfl⟩
  · exact ⟨c, readConfig_again h hs, fun _ _ => rfl, fun _ => rfl⟩
  · obtain ⟨o, ho, rfl⟩ := Checked.map_eq_ok.mp h
    obtain ⟨hwindow, -, -, -, hfault⟩ := Override.read_eq_ok.mp ho
    obtain ⟨d, hd, hfields⟩ := readConfig_window hwindow hfault hs
    exact ⟨d, hd, hfields, nofun⟩
  · obtain ⟨o, ho, rfl⟩ := Checked.map_eq_ok.mp h
    obtain ⟨hwindow, -, -, -, -, hfault⟩ := RoleConfig.read_eq_ok.mp ho
    obtain ⟨d, hd, hfields⟩ := readConfig_window hwindow hfault hs
    exact ⟨d, hd, hfields, nofun⟩
  · obtain ⟨a, ha, rfl⟩ := Checked.map_eq_ok.mp h
    obtain ⟨hwindow, -, -, hfault⟩ := Assignment.read_eq_ok.mp ha
    obtain ⟨d, hd, hfields⟩ := readConfig_window hwindow hfault hs
    exact ⟨d, hd, hfields, nofun⟩

/-- An instance is read from entries by its own schema. -/
private theorem exists_read (i : Instance) : ∃ es, i.config.schema.read es = .ok i := by
  obtain ⟨s, es, hread, hgiven⟩ := i.accepted
  obtain rfl := schema_of_readConfig hread
  exact ⟨es, read_eq_ok.mpr ⟨hread, hgiven.symm⟩⟩

/-- An instance of the schema, or of one that extends it, is returned as it is. -/
theorem parse_toValue (hisA : i.config.schema.isA s = true) : s.parse i.toValue = .ok i := by
  obtain ⟨es, hread⟩ := exists_read i
  have hown : s.ownInstance? i.toValue = some i := by
    show (if i.config.schema.isA s then (i.config.schema.read (entriesOf i.setFields)).value?
      else none) = some i
    rw [if_pos hisA, read_setFields hread]
    rfl
  rw [parse, hown]

/-- The fields of an instance describe its configuration, to a schema that it extends as to its
own. -/
theorem parse_ofTable {t : Schema} {u : Table} (hread : s.read es = .ok i) (hst : s.isA t = true)
    (hs : Restates es (entriesOf u) i.config.fields) :
    ∃ j, t.parse (.ofTable u) = .ok j ∧ j.config.schema = t ∧
      (∀ f ∈ t.fieldNames, j.config.fields.lookup f = i.config.fields.lookup f) ∧
      (t = s → j.config = i.config) := by
  obtain ⟨d, hd, hfields, hsame⟩ := readConfig_of_isA hst (read_eq_ok.mp hread).1 hs
  have hj : t.read (entriesOf u) = .ok ⟨d, t.givenNames (entriesOf u), t, _, hd, rfl⟩ :=
    read_eq_ok.mpr ⟨hd, rfl⟩
  exact ⟨_, hj, schema_of_readConfig hd, hfields, hsame⟩

end Schema

/-! ## Permissions of either kind -/

namespace PermissionConfig

variable {es fs : Entries} {i : Instance}

/-- Where entries are read as a permission, what restates it has its tag. -/
theorem selectSchema_again {s : Schema} (hs : s = .systemPermission ∨ s = .dataPermission)
    (h : s.read es = .ok i) (hr : Restates es fs i.config.fields) : selectSchema fs = .ok s := by
  -- The tag is a required field, so it is restated by what stands there.
  have hselected : ∀ t, tag es (tagOf s) = .ok () → RestatesAt es fs tagField (.text (tagOf s)) →
      schemaOfTag? (.text (tagOf s)) = some t → selectSchema fs = .ok t := by
    intro t htag hat hselects
    obtain ⟨v, hv, -⟩ := Field.required_eq_ok.mp (tag_again htag hat)
    rcases hat with hfind | ⟨hfind, -⟩
    · exact selectSchema_eq_ok.mpr ⟨_, hfind, hselects⟩
    · simp [hfind] at hv
  obtain ⟨c, given, haccepted⟩ := i
  rcases hs with rfl | rfl
  · obtain ⟨p, hp, rfl⟩ := Checked.map_eq_ok.mp (Schema.read_eq_ok.mp h).1
    exact hselected _ (SystemPermission.read_eq_ok.mp hp).1 (hr.field List.mem_cons_self) rfl
  · obtain ⟨p, hp, rfl⟩ := Checked.map_eq_ok.mp (Schema.read_eq_ok.mp h).1
    exact hselected _ (DataPermission.read_eq_ok.mp hp).1 (hr.field List.mem_cons_self) rfl

/-- A permission's fields lead to its own schema by their tag. -/
theorem parseInstance_ofTable {s : Schema} {u : Table}
    (hs : s = .systemPermission ∨ s = .dataPermission) (h : s.read es = .ok i)
    (hr : Restates es (Schema.entriesOf u) i.config.fields) :
    parseInstance (.ofTable u) = (s.parse (.ofTable u)).under (tagOf s) := by
  show (selectSchema (Schema.entriesOf u)).andThen _ = _
  rw [selectSchema_again hs h hr]
  rfl

/-- A permission with nothing nested in it is unchanged by being taken apart and read again. -/
theorem parseInstance_toValue {s : Schema} (hs : s = .systemPermission ∨ s = .dataPermission)
    (h : s.read es = .ok i) (hflat : i.IsFlat) : parseInstance i.toValue = .ok i := by
  have hunfold : parseInstance i.toValue = parseInstance (.ofTable i.setFields) := by
    show readInstance (Value.unfoldedFields i.setFields)
      = readInstance (Schema.entriesOf i.setFields)
    rw [Value.unfoldedFields_eq_entriesOf hflat.setFields]
  rw [hunfold, parseInstance_ofTable hs h (Schema.restates_setFields h), Checked.under_eq_ok]
  exact Schema.read_setFields h

end PermissionConfig

/-! ## The fixed point -/

/-- What is accepted, with nothing nested in it, is accepted again as what it is.  From its given
fields, or from all of them, its own schema reads its configuration, and the schema that was asked
for, which it may extend, reads the same in every field; and a permission that either schema of
permissions accepted is accepted as a permission of either kind, unchanged. -/
theorem SchemaChoice.accepted_is_fixed_point {choice : SchemaChoice} {v : Value} {i : Instance}
    (h : choice.instances v = .ok i) (hflat : i.IsFlat) :
    choice.instances i.toValue = .ok i ∧
    (∀ u, u = i.setFields ∨ u = i.config.fields →
      Instance.config <$> i.config.schema.parse (.ofTable u) = .ok i.config ∧
      ∃ j, choice.instances (.ofTable u) = .ok j ∧ choice.Asks j.config.schema ∧
        (∀ f ∈ j.config.schema.fieldNames, j.config.fields.lookup f = i.config.fields.lookup f) ∧
        (choice.Asks i.config.schema → j.config = i.config)) ∧
    (SchemaChoice.permission.Asks i.config.schema →
      SchemaChoice.permission.instances i.toValue = .ok i) := by
  obtain ⟨es, hread⟩ := Schema.exists_read i
  -- The set fields and all fields are told alike from here on: both restate the configuration.
  have hrestates : ∀ u, u = i.setFields ∨ u = i.config.fields →
      Restates es (Schema.entriesOf u) i.config.fields := by
    rintro u (rfl | rfl)
    · exact Schema.restates_setFields hread
    · exact Schema.restates_fields
  refine ⟨?_, fun u hu => ⟨?_, ?_⟩, fun hs => PermissionConfig.parseInstance_toValue hs hread hflat⟩
  · -- An instance of a schema is returned as it is; one of a permission is taken apart first.
    cases choice with
    | schema s => exact Schema.parse_toValue (Schema.exists_read_of_parse h).1
    | permission =>
      have hs := (PermissionConfig.exists_read_of_parseInstance h).1
      exact PermissionConfig.parseInstance_toValue hs hread hflat
  · obtain ⟨j, hj, -, -, hsame⟩ :=
      Schema.parse_ofTable hread (Schema.isA_refl _) (hrestates u hu)
    exact Checked.map_eq_ok.mpr ⟨j, hj, hsame rfl⟩
  · -- The schema that was asked for may be one that the instance's own schema extends.
    cases choice with
    | schema s =>
      obtain ⟨j, hj, rfl, hfields, hsame⟩ := Schema.parse_ofTable hread
        (Schema.exists_read_of_parse h).1 (hrestates u hu)
      exact ⟨j, hj, rfl, hfields, hsame⟩
    | permission =>
      have hs := (PermissionConfig.exists_read_of_parseInstance h).1
      obtain ⟨j, hj, hschema, hfields, hsame⟩ :=
        Schema.parse_ofTable hread (Schema.isA_refl _) (hrestates u hu)
      refine ⟨j, ?_, ?_, hschema ▸ hfields, fun _ => hsame rfl⟩
      · rw [SchemaChoice.instances,
          PermissionConfig.parseInstance_ofTable hs hread (hrestates u hu), hj]
        rfl
      · show j.config.schema = .systemPermission ∨ j.config.schema = .dataPermission
        rw [hschema]
        exact hs

/-- A permission on storage, with its name in bytes and its scope as a text. -/
def storageEntries : Entries :=
  [(.text "permission_type", .text "data"), (.text "name", .bytes [102, 105, 108, 101, 115]),
    (.text "scope", .text "storage"), (.text "action", .text "*"),
    (.text "metadata", .dictionary [(.text "bucket_name", .text "b"),
      (.bytes [112, 97, 116, 104, 95, 112, 97, 116, 116, 101, 114, 110], .text "p")])]

/-- A permission for storage is read, and its fields are read again to the same instance. -/
theorem SchemaChoice.accepted_is_fixed_point_storage :
    ∃ i, SchemaChoice.permission.instances (.dictionary storageEntries) = .ok i ∧ i.IsFlat ∧
      (i.config.fields.lookup "name").bind Value.text? = some "files" ∧
      SchemaChoice.permission.instances i.toValue = .ok i := by
  -- The instance carries a proof, so what is computed is a test of it and not the instance itself.
  have hread : (SchemaChoice.permission.instances (.dictionary storageEntries)).value?.any
      (fun i => i.config.fields.all (fun f => !f.2.holdsInstance)
        && decide ((i.config.fields.lookup "name").bind Value.text? = some "files")) = true := by
    decide +kernel
  cases hi : SchemaChoice.permission.instances (.dictionary storageEntries) with
  | bad is => simp [hi, Checked.value?] at hread
  | ok i =>
    simp only [hi, Checked.value?, Option.any_some, Bool.and_eq_true, decide_eq_true_eq] at hread
    obtain ⟨hflat, hname⟩ := hread
    have hflat : i.IsFlat := by simpa [Instance.IsFlat] using hflat
    exact ⟨i, rfl, hflat, hname, (SchemaChoice.accepted_is_fixed_point hi hflat).1⟩

end AccessGraph
