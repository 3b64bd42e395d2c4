import AccessGraph.Proofs.Config.Rules
import AccessGraph.Registry.Basic

/-!
# What the error of a configuration names

An error lists the paths of the offending fields, and its message gives each path with what is wrong
there.  The paths are those of the fields that hold what their rules do not admit, and of no others,
in the order of the fields; where there is no such field, but the configuration as a whole breaks
its schema, the one path is that of the whole (`SchemaChoice.errors_name_invalid_fields`).
-/

namespace AccessGraph

/-! ## Paths -/

/-- The path of a field: that of a permission of either kind starts with its tag. -/
def fieldPath (tag : Option String) (field : String) : String :=
  tag.elim field fun t => t ++ "." ++ field

/-- The path of a configuration as a whole. -/
def rootPath (tag : Option String) : String := tag.getD "__root__"

/-- The path is that of the field, or of a part of it. -/
def IsPathOf (field path : String) : Prop := path = field ∨ ∃ rest, path = field ++ "." ++ rest

/-- The characters of a path that names a field come after those of the field, from a dot on. -/
private theorem IsPathOf.toList {field path : String} (h : IsPathOf field path) :
    ∃ rest, path.toList = field.toList ++ rest ∧ rest.takeWhile (· != '.') = [] := by
  rcases h with rfl | ⟨rest, rfl⟩
  · exact ⟨[], by simp, rfl⟩
  · exact ⟨'.' :: rest.toList, by simp, rfl⟩

/-- A name without a dot is what comes in front of the first dot. -/
private theorem takeWhile_append_of_notMem {field : String} (hdot : '.' ∉ field.toList)
    {rest : List Char} (hrest : rest.takeWhile (· != '.') = []) :
    (field.toList ++ rest).takeWhile (· != '.') = field.toList := by
  rw [List.takeWhile_append_of_pos, hrest, List.append_nil]
  intro c hc
  exact bne_iff_ne.mpr fun heq => hdot (heq ▸ hc)

/-- A path names one field at most. -/
theorem IsPathOf.unique {tag : Option String} {f g path : String} (hf : '.' ∉ f.toList)
    (hg : '.' ∉ g.toList) (h : IsPathOf (fieldPath tag f) path)
    (h' : IsPathOf (fieldPath tag g) path) :
    f = g := by
  obtain ⟨x, hx, hxdot⟩ := h.toList
  obtain ⟨y, hy, hydot⟩ := h'.toList
  have heq : f.toList ++ x = g.toList ++ y := by
    cases tag with
    | none => exact hx.symm.trans hy
    | some t => simpa [fieldPath] using hx.symm.trans hy
  -- A field has no dot in its name, so the name is what stands in front of the first one.
  have hchars := congrArg (List.takeWhile (· != '.')) heq
  rw [takeWhile_append_of_notMem hf hxdot, takeWhile_append_of_notMem hg hydot] at hchars
  exact String.toList_inj.mp hchars

/-- The path of the whole names no field. -/
private theorem not_isPathOf_rootPath {tag : Option String} {f : String} (hf : '.' ∉ f.toList)
    (hroot : f ≠ "__root__") : ¬ IsPathOf (fieldPath tag f) (rootPath tag) := by
  intro h
  cases tag with
  | none =>
    have hself : IsPathOf (fieldPath none "__root__") (rootPath none) := .inl rfl
    exact hroot (h.unique hf (by decide) hself)
  | some t =>
    obtain ⟨x, hx, -⟩ := h.toList
    have hlength := congrArg List.length hx
    simp [fieldPath, rootPath] at hlength

/-- No field of a schema has a dot in its name. -/
private theorem Schema.dot_notMem {s : Schema} {f : String} (h : f ∈ s.fieldNames) :
    '.' ∉ f.toList := by
  have hall : ∀ s : Schema, ∀ f ∈ s.fieldNames, '.' ∉ f.toList := by
    intro s
    cases s <;> decide
  exact hall s f h

/-- No field of a schema has the name that stands for the whole. -/
private theorem Schema.ne_root {s : Schema} {f : String} (h : f ∈ s.fieldNames) :
    f ≠ "__root__" := by
  have hall : ∀ s : Schema, "__root__" ∉ s.fieldNames := by
    intro s
    cases s <;> decide
  exact fun heq => hall s (heq ▸ h)

/-- An issue below the tag of a permission. -/
def Issue.inside (tag : Option String) (i : Issue) : Issue :=
  { i with path := tag.toList ++ i.path }

/-- The path of an issue is that of the field in which it lies. -/
private theorem Issue.isPathOf_inside {tag : Option String} {i : Issue} {f : String}
    {rest : List String}
    (h : i.path = f :: rest) : IsPathOf (fieldPath tag f) (i.inside tag).pathText := by
  -- The path goes on behind the field, or ends there; a tag only stands in front.
  cases tag with
  | none =>
    cases rest with
    | nil => exact .inl (by simp [pathText, inside, h, fieldPath])
    | cons g gs =>
      exact .inr ⟨String.intercalate "." (g :: gs), by
        simp [pathText, inside, h, fieldPath, String.intercalate_cons_cons]⟩
  | some t =>
    cases rest with
    | nil => exact .inl (by simp [pathText, inside, h, fieldPath, String.intercalate_cons_cons])
    | cons g gs =>
      exact .inr ⟨String.intercalate "." (g :: gs), by
        simp [pathText, inside, h, fieldPath, String.intercalate_cons_cons, String.append_assoc]⟩

/-- The path of an issue with a configuration as a whole names no field. -/
private theorem Issue.pathText_inside_root (tag : Option String) (cause : Cause) :
    ((⟨[], cause⟩ : Issue).inside tag).pathText = rootPath tag := by
  cases tag with
  | none => rfl
  | some t => simp [pathText, inside, rootPath]

/-! ## What is read from a dictionary -/

/-- The schema by which the entries of a dictionary are read, and the tag that the paths of its
issues start with.  A permission of either kind is read by the schema that its tag selects. -/
inductive SchemaChoice.Selects (es : Entries) : SchemaChoice → Schema → Option String → Prop
  | schema (s : Schema) : Selects es (.schema s) s none
  | system {v : Value} : Value.find? es "permission_type" = some v → v.text? = some "system" →
    Selects es .permission .systemPermission (some "system")
  | data {v : Value} : Value.find? es "permission_type" = some v → v.text? = some "data" →
    Selects es .permission .dataPermission (some "data")

/-- The issues of the check below the tag. -/
def Checked.inside {α : Type} (tag : Option String) : Checked α → Checked α
  | .ok a => .ok a
  | .bad is => .bad (is.map (Issue.inside tag))

/-- Entries with a known tag are read by the schema of the tag, and the issues are told inside
it. -/
theorem PermissionConfig.parse_of_tag {es : Entries} {s : Schema} {v : Value}
    (hv : Value.find? es tagField = some v) (hs : schemaOfTag? v = some s) :
    PermissionConfig.config <$> PermissionConfig.parse (.dictionary es)
      = (s.readConfig es).inside (some (tagOf s)) := by
  rw [PermissionConfig.parse, ← config_readInstance, readInstance,
    selectSchema_eq_ok.mpr ⟨v, hv, hs⟩, Checked.andThen, Checked.map_under, Schema.config_read]
  cases s.readConfig es <;> rfl

/-- Whatever schema is selected reads the entries. -/
theorem SchemaChoice.Selects.parse_eq {es : Entries} {choice : SchemaChoice} {s : Schema}
    {tag : Option String} (h : choice.Selects es s tag) :
    choice.parse (.dictionary es) = (s.readConfig es).inside tag := by
  cases h with
  -- A schema that was asked for stands without a tag, so issues are told as they are.
  | schema =>
    show Instance.config <$> s.read es = _
    rw [Schema.config_read]
    cases s.readConfig es with
    | ok c => rfl
    | bad is =>
      have hsame : Issue.inside none = id := rfl
      rw [Checked.inside, hsame, List.map_id]
  | system hv htext =>
    exact PermissionConfig.parse_of_tag hv (by simp [PermissionConfig.schemaOfTag?, htext])
  | data hv htext =>
    exact PermissionConfig.parse_of_tag hv (by simp [PermissionConfig.schemaOfTag?, htext])

/-- A configuration is sound, or sound but for the check of the whole, which is then the only issue,
or its issues are those of its fields. -/
private theorem Schema.readConfig_cases (s : Schema) (es : Entries) :
    (s.fieldIssues es = [] ∧ (∀ cause, ¬ s.Breaks es cause) ∧ ∃ c, s.readConfig es = .ok c) ∨
    (s.fieldIssues es = [] ∧
      ∃ cause, (∀ other, s.Breaks es other ↔ other = cause) ∧
        s.readConfig es = .bad [⟨[], cause⟩]) ∨
    s.fieldIssues es ≠ [] ∧ s.readConfig es = .bad (s.fieldIssues es) := by
  obtain ⟨stage, hstage, hread⟩ := exists_stage es s
  rw [hread, ← hstage.issues]
  -- The fields are read first; the configuration as a whole is checked only if all of them are.
  cases stage with
  | ok c =>
    have hfault := hstage.fault c rfl
    cases hc : c.fault? with
    | none =>
      refine .inl ⟨rfl, fun cause hbreaks => ?_, c, ?_⟩
      · simp [(hfault cause).mpr hbreaks] at hc
      · simp [Checked.andThen, Checked.sound, hc]
    | some cause =>
      refine .inr (.inl ⟨rfl, cause, fun other => ?_, ?_⟩)
      · rw [← hfault other, hc, Option.some.injEq]
        exact eq_comm
      · simp [Checked.andThen, Checked.sound, hc, Checked.fail]
  | bad is =>
    -- Issues that are told are there.
    refine .inr (.inr ⟨fun hnone => hstage.told ?_, rfl⟩)
    rw [show is = [] from hnone]

/-! ## The error -/

/-- The fields that an error names. -/
def errorFields {α : Type} : Except Error α → List String
  | .ok _ => []
  | .error e => e.fields

section

variable {s : Schema} {es : Entries} {tag : Option String}

/-- The paths of the issues of the fields, one group for each field. -/
def pathGroups (s : Schema) (es : Entries) (tag : Option String) : List (List String) :=
  s.rules.map fun x =>
    (x.2.report x.1 (Value.find? es x.1)).map fun i => (i.inside tag).pathText

/-- The paths that are told are the paths of the fields, field after field. -/
private theorem flatten_pathGroups :
    ((s.fieldIssues es).map (Issue.inside tag)).map Issue.pathText
      = (pathGroups s es tag).flatten := by
  rw [List.map_map, Schema.fieldIssues, List.map_flatMap, List.flatMap_def]
  rfl

/-- A field has no path in its group if what it holds is admitted, and every path in its group
names it. -/
private theorem forall₂_pathGroups :
    s.fieldNames.Forall₂ (fun f group =>
      (group = [] ↔ s.Admits f (Value.find? es f)) ∧
        ∀ path ∈ group, IsPathOf (fieldPath tag f) path) (pathGroups s es tag) := by
  rw [← s.names_rules, pathGroups, List.forall₂_map_left_iff, List.forall₂_map_right_iff,
    List.forall₂_same]
  -- Each field is told by its own rule, so the groups are compared one by one.
  intro x hx
  refine ⟨?_, fun path hpath => ?_⟩
  · rw [List.map_eq_nil_iff]
    exact Schema.report_eq_nil hx
  · obtain ⟨i, hi, rfl⟩ := List.mem_map.mp hpath
    obtain ⟨rest, hrest⟩ := FieldRule.exists_path_of_report hi
    exact Issue.isPathOf_inside hrest

/-- A path among the groups names a field exactly if what the field holds is not admitted. -/
private theorem exists_isPathOf_iff {f : String} (hf : f ∈ s.fieldNames) :
    (∃ path ∈ (pathGroups s es tag).flatten, IsPathOf (fieldPath tag f) path) ↔
      ¬ s.Admits f (Value.find? es f) := by
  simp only [pathGroups, List.mem_flatten, List.mem_map]
  constructor
  · rintro ⟨_, ⟨_, ⟨x, hx, rfl⟩, hpath⟩, hnames⟩ hadmits
    obtain ⟨i, hi, rfl⟩ := List.mem_map.mp hpath
    obtain ⟨rest, hrest⟩ := FieldRule.exists_path_of_report hi
    -- The path names the field of the rule, and no other one.
    have hname : x.1 ∈ s.fieldNames := s.names_rules ▸ List.mem_map_of_mem hx
    obtain rfl := hnames.unique (Schema.dot_notMem hf) (Schema.dot_notMem hname)
      (Issue.isPathOf_inside hrest)
    rw [(Schema.report_eq_nil hx).mpr hadmits] at hi
    exact List.not_mem_nil hi
  · intro hnot
    rw [← s.names_rules] at hf
    obtain ⟨x, hx, rfl⟩ := List.mem_map.mp hf
    obtain ⟨i, hi⟩ := List.exists_mem_of_ne_nil _ (mt (Schema.report_eq_nil hx).mp hnot)
    obtain ⟨rest, hrest⟩ := FieldRule.exists_path_of_report hi
    exact ⟨_, ⟨_, ⟨x, hx, rfl⟩, List.mem_map_of_mem hi⟩, Issue.isPathOf_inside hrest⟩

/-- The path of the whole is not among the groups. -/
private theorem rootPath_notMem : rootPath tag ∉ (pathGroups s es tag).flatten := by
  intro h
  simp only [pathGroups, List.mem_flatten, List.mem_map] at h
  obtain ⟨_, ⟨x, hx, rfl⟩, hpath⟩ := h
  obtain ⟨i, hi, heq⟩ := List.mem_map.mp hpath
  obtain ⟨rest, hrest⟩ := FieldRule.exists_path_of_report hi
  have hname : x.1 ∈ s.fieldNames := s.names_rules ▸ List.mem_map_of_mem hx
  exact not_isPathOf_rootPath (Schema.dot_notMem hname) (Schema.ne_root hname)
    (heq ▸ Issue.isPathOf_inside hrest)

end

/-- The message gives the path of each field that the error names with what is wrong there. -/
private theorem message_of_orInvalid {α : Type} {kind : String} {c : Checked α} {e : Error}
    (h : c.orInvalid kind = .error e) :
    ∃ details, details.length = e.fields.length ∧
      e.message = "Invalid " ++ kind ++ " configuration: " ++ String.intercalate "; "
        (e.fields.zipWith (fun path text => path ++ ": " ++ text) details) := by
  cases c with
  | ok a => simp [Checked.orInvalid] at h
  | bad issues =>
    obtain rfl := Except.error.inj h
    -- The message pairs each path with the text of its cause.
    have htexts : (issues.map Issue.pathText).zipWith (fun path text => path ++ ": " ++ text)
        (issues.map fun i => i.cause.message) = issues.map Issue.text := by
      rw [List.zipWith_map, List.zipWith_self]
      exact List.map_congr_left fun i _ => by rw [Issue.text]
    refine ⟨issues.map fun i => i.cause.message, by simp [Error.fields], ?_⟩
    show _ = _ ++ String.intercalate "; " ((issues.map Issue.pathText).zipWith _ _)
    rw [htexts]
    rfl

/-- Of a dictionary that is read by a schema, the error names a field exactly if the rule of the
field does not admit what the dictionary holds under the field's name, or that it holds nothing.
Where there is such a field, the paths come in one group for each field, in the order of the
fields.  Where there is none, but the configuration as a whole breaks the schema, its path is the
only one; and where it does not, the dictionary is accepted.  The message has one detail for each
path. -/
theorem SchemaChoice.errors_name_invalid_fields {choice : SchemaChoice} {s : Schema} {es : Entries}
    {tag : Option String} (hs : choice.Selects es s tag) (kind : String) :
    let outcome := (choice.parse (.dictionary es)).orInvalid kind
    let valid := ∀ f ∈ s.fieldNames, s.Admits f (Value.find? es f)
    (∀ f ∈ s.fieldNames, (∃ path ∈ errorFields outcome, IsPathOf (fieldPath tag f) path) ↔
      ¬ s.Admits f (Value.find? es f)) ∧
    (¬ valid → ∃ groups, errorFields outcome = groups.flatten ∧
      s.fieldNames.Forall₂ (fun f group => (group = [] ↔ s.Admits f (Value.find? es f)) ∧
        ∀ path ∈ group, IsPathOf (fieldPath tag f) path) groups) ∧
    (rootPath tag ∈ errorFields outcome ↔ valid ∧ ∃ cause, s.Breaks es cause) ∧
    (valid → ∀ cause, s.Breaks es cause →
      outcome = .error (.invalid kind [⟨tag.toList, cause⟩]) ∧
        errorFields outcome = [rootPath tag]) ∧
    ((∃ c, outcome = .ok c) ↔ valid ∧ ¬ ∃ cause, s.Breaks es cause) ∧
    ∀ e, outcome = .error e → ∃ details, details.length = e.fields.length ∧
      e.message = "Invalid " ++ kind ++ " configuration: " ++ String.intercalate "; "
        (e.fields.zipWith (fun path text => path ++ ": " ++ text) details) := by
  intro outcome valid
  have hvalid : s.fieldIssues es = [] ↔ valid := Schema.fieldIssues_eq_nil
  have hmessage : ∀ e, outcome = .error e → ∃ details, details.length = e.fields.length ∧
      e.message = "Invalid " ++ kind ++ " configuration: " ++ String.intercalate "; "
        (e.fields.zipWith (fun path text => path ++ ": " ++ text) details) :=
    fun _ he => message_of_orInvalid he
  rcases s.readConfig_cases es with ⟨hnone, hsound, c, hread⟩ | ⟨hnone, cause, hbreaks, hread⟩ |
    ⟨hsome, hread⟩
  · -- Nothing is wrong.
    have houtcome : outcome = .ok c := by
      simp [outcome, hs.parse_eq, hread, Checked.inside, Checked.orInvalid]
    have hall : valid := hvalid.mp hnone
    refine ⟨fun f hf => ?_, fun hnot => absurd hall hnot, ?_, ?_, ?_, hmessage⟩
    · simp [houtcome, errorFields, hall f hf]
    · simp [houtcome, errorFields, hsound]
    · exact fun _ cause hcause => absurd hcause (hsound cause)
    · simp [houtcome, hall, hsound]
  · -- All fields are in order, and the configuration as a whole is told to be wrong.
    have houtcome : outcome = .error (.invalid kind [⟨tag.toList, cause⟩]) := by
      simp [outcome, hs.parse_eq, hread, Checked.inside, Checked.orInvalid, Issue.inside]
    have hfields : errorFields outcome = [rootPath tag] := by
      rw [houtcome, ← Issue.pathText_inside_root tag cause]
      simp [errorFields, Error.fields, Issue.inside]
    have hall : valid := hvalid.mp hnone
    have hexists : ∃ cause, s.Breaks es cause := ⟨cause, (hbreaks cause).mpr rfl⟩
    refine ⟨fun f hf => ?_, fun hnot => absurd hall hnot, ?_, ?_, ?_, hmessage⟩
    · simp [hfields, hall f hf, not_isPathOf_rootPath (Schema.dot_notMem hf) (Schema.ne_root hf)]
    · simp [hfields, hall, hexists]
    · intro _ other hother
      obtain rfl := (hbreaks other).mp hother
      exact ⟨houtcome, hfields⟩
    · simp [houtcome, hexists]
  · -- Some field is wrong, and the configuration as a whole was not looked at.
    have houtcome :
        outcome = .error (.invalid kind ((s.fieldIssues es).map (Issue.inside tag))) := by
      simp [outcome, hs.parse_eq, hread, Checked.inside, Checked.orInvalid]
    have hfields : errorFields outcome = (pathGroups s es tag).flatten := by
      rw [houtcome, ← flatten_pathGroups]
      rfl
    have hnot : ¬ valid := mt hvalid.mpr hsome
    refine ⟨fun f hf => ?_, fun _ => ⟨_, hfields, forall₂_pathGroups⟩, ?_, ?_, ?_, hmessage⟩
    · rw [hfields]
      exact exists_isPathOf_iff hf
    · rw [hfields]
      exact iff_of_false rootPath_notMem fun h => hnot h.1
    · exact fun h => absurd h hnot
    · simp [houtcome, hnot]

/-- A permission without a name, on an unknown action, with a key that is no text. -/
def faultyEntries : Entries :=
  [(.text "permission_type", .text "data"), (.text "scope", .text "table"),
    (.text "action", .text "drop"), (.text "metadata", .dictionary [(.int 1, .bool true)])]

/-- A permission on storage without a location. -/
def unlocatedEntries : Entries :=
  [(.text "permission_type", .text "data"), (.text "name", .text "files"),
    (.text "scope", .text "storage"), (.text "action", .text "*")]

/-- Three fields are told in the order of the schema, and a fault of the whole is told once by
itself. -/
theorem SchemaChoice.errors_name_invalid_fields_sample :
    (errorFields ((SchemaChoice.permission.parse (.dictionary faultyEntries)).orInvalid "thing")
        = ["data.name", "data.action", "data.metadata.1.[key]"] ∧
      ¬ Schema.dataPermission.Admits "metadata" (Value.find? faultyEntries "metadata")) ∧
    errorFields ((SchemaChoice.permission.parse (.dictionary unlocatedEntries)).orInvalid "thing")
        = ["data"] ∧
      (∀ f ∈ Schema.dataPermission.fieldNames,
        Schema.dataPermission.Admits f (Value.find? unlocatedEntries f)) ∧
      ∃ cause, Schema.dataPermission.Breaks unlocatedEntries cause := by
  have hfaulty : errorFields
      ((SchemaChoice.permission.parse (.dictionary faultyEntries)).orInvalid "thing")
        = ["data.name", "data.action", "data.metadata.1.[key]"] := by decide +kernel
  have hunlocated : errorFields
      ((SchemaChoice.permission.parse (.dictionary unlocatedEntries)).orInvalid "thing")
        = ["data"] := by decide +kernel
  have hselects : ∀ rest : Entries, SchemaChoice.permission.Selects
      ((.text "permission_type", .text "data") :: rest) .dataPermission (some "data") :=
    fun rest => .data (v := .text "data") rfl rfl
  refine ⟨⟨hfaulty, ?_⟩, hunlocated, ?_⟩
  · -- The path of the key lies within the metadata, so that field was told.
    refine ((SchemaChoice.errors_name_invalid_fields (hselects _) "thing").1 "metadata"
      (by decide)).mp ⟨"data.metadata.1.[key]", ?_, .inr ⟨"1.[key]", by decide⟩⟩
    exact hfaulty ▸ by decide
  · exact (SchemaChoice.errors_name_invalid_fields (hselects _) "thing").2.2.1.mp
      (hunlocated ▸ List.mem_singleton_self _)

end AccessGraph
