import AccessGraph.Proofs.Config.Instances

/-!
# The rules of the fields

A schema has one rule for each of its fields: whether the field has to be there, and which values it
admits.  A rule looks at its own field and at nothing else.  A configuration is read in two stages:
the first one reports what the rules report, field by field in the order of the schema
(`Schema.exists_stage`); where they report nothing the second one looks at the configuration as a
whole, and `Schema.Breaks` says when that fails.
-/

namespace AccessGraph

/-! ## Checks that say what is wrong -/

namespace Checked

variable {α β : Type}

/-- If the check fails it reports at least one issue. -/
def IsTold (c : Checked α) : Prop := c ≠ .bad []

theorem isTold_ok (a : α) : (Checked.ok a).IsTold := by simp [IsTold]

theorem isTold_fail (cause : Cause) : (fail cause : Checked α).IsTold := by simp [IsTold, fail]

/-- Where issues are told, there are none just if there is a result. -/
theorem IsTold.issues_eq_nil {c : Checked α} (h : c.IsTold) : c.issues = [] ↔ ∃ a, c = .ok a := by
  cases c with
  | ok a => simp [issues]
  | bad is => simpa [issues, IsTold] using h

theorem map_eq (f : α → β) (c : Checked α) : c.map f = f <$> c := by
  cases c <;> rfl

/-- The issues of two checks together are those of the first and then those of the second. -/
theorem issues_seq (f : Checked (α → β)) (x : Checked α) :
    (f <*> x).issues = f.issues ++ x.issues := issues_both f x

/-- What is made of a result has the same issues. -/
theorem issues_map (f : α → β) (x : Checked α) : (f <$> x).issues = x.issues := by
  cases x <;> rfl

/-- Issues with a part are told below it. -/
theorem issues_under (part : String) (c : Checked α) :
    (c.under part).issues = c.issues.map fun i => { i with path := part :: i.path } := by
  cases c <;> rfl

/-- Making something of a result keeps the issues. -/
theorem IsTold.map (f : α → β) {x : Checked α} (h : x.IsTold) : (f <$> x).IsTold := by
  cases x with
  | ok a => exact isTold_ok _
  | bad is => simpa [IsTold, map_bad] using h

/-- Two checks that tell their issues do so together. -/
theorem IsTold.seq {f : Checked (α → β)} {x : Checked α} (hf : f.IsTold) (hx : x.IsTold) :
    (f <*> x).IsTold := by
  intro heq
  have hnone : (f <*> x).issues = [] := by rw [heq, issues]
  -- Without an issue on either side both checks pass, and so does the two of them together.
  obtain ⟨hfnone, hxnone⟩ := List.append_eq_nil_iff.mp (issues_seq f x ▸ hnone)
  obtain ⟨g, rfl⟩ := hf.issues_eq_nil.mp hfnone
  obtain ⟨a, rfl⟩ := hx.issues_eq_nil.mp hxnone
  exact absurd heq (isTold_ok _)

/-- Two steps that tell their issues do so one after the other. -/
theorem IsTold.andThen {c : Checked α} {f : α → Checked β} (hc : c.IsTold)
    (hf : ∀ a, (f a).IsTold) : (c.andThen f).IsTold := by
  cases c with
  | ok a => exact hf a
  | bad is => simpa [IsTold, Checked.andThen] using hc

theorem IsTold.under {c : Checked α} (part : String) (h : c.IsTold) : (c.under part).IsTold := by
  cases c with
  | ok a => exact isTold_ok a
  | bad is => simpa [IsTold, Checked.under] using h

end Checked

namespace Field

open Checked (isTold_ok isTold_fail)

variable {α : Type}

/-- Whatever value the check fails on, it says what is wrong. -/
def Check.IsTold (check : Check α) : Prop := ∀ v, (check v).IsTold

/-- What is not a text is told. -/
theorem isTold_text : Check.IsTold text := by
  intro v
  unfold text
  split
  · exact isTold_ok _
  · exact isTold_ok _
  · split
    · exact isTold_ok _
    · exact isTold_fail _
  · exact isTold_fail _

/-- A text that is too short or too long is told. -/
theorem isTold_boundedText (least : Nat) (most : Option Nat) :
    Check.IsTold (boundedText least most) := by
  refine fun v => (isTold_text v).andThen fun s => ?_
  split
  · exact isTold_fail _
  · cases most with
    | none => exact isTold_ok s
    | some n =>
      by_cases hlong : n < s.length
      · simpa [hlong] using isTold_fail (.tooLong n)
      · simpa [hlong] using isTold_ok s

/-- What is told of a value is told of one that may be null. -/
theorem Check.IsTold.nullable {check : Check α} (h : check.IsTold) :
    Check.IsTold (Field.nullable check) := by
  intro v
  unfold Field.nullable
  split
  · exact isTold_ok _
  · rw [Checked.map_eq]
    exact (h v).map some

/-- What is none of the words is told. -/
theorem isTold_word (values : List α) (wordText : α → String) :
    Check.IsTold (word values wordText) := by
  intro v
  dsimp only [word]
  split
  · exact isTold_ok _
  · exact isTold_fail _

/-- What is not the tag is told. -/
theorem isTold_tag (expected : String) : Check.IsTold fun v =>
    if v.text? = some expected then .ok () else .fail (.notOneOf [expected]) := by
  intro v
  dsimp only
  split
  · exact isTold_ok ()
  · exact isTold_fail _

/-- A text that is no flag is told. -/
private theorem isTold_flagOfText (s : String) : (flagOfText s).IsTold := by
  dsimp only [flagOfText]
  split
  · exact isTold_ok _
  · split
    · exact isTold_ok _
    · exact isTold_fail _

theorem isTold_flagOfInt (n : Int) : (flagOfInt n).IsTold := by
  unfold flagOfInt
  split
  · exact isTold_ok _
  · split
    · exact isTold_ok _
    · split <;> exact isTold_fail _

private theorem isTold_flagOfDouble (x : Double) : (flagOfDouble x).IsTold := by
  unfold flagOfDouble
  split
  · split
    · exact isTold_fail _
    · exact isTold_flagOfInt _
  · exact isTold_fail _

theorem isTold_flag : Check.IsTold flag := by
  intro v
  -- Words, bytes and numbers of all types may be flags.
  cases v with
  | bool b => exact isTold_ok b
  | int n => exact isTold_flagOfInt n
  | double x => exact isTold_flagOfDouble x
  | decimal d =>
    rw [flag]
    cases d.toDouble? with
    | none => exact isTold_fail _
    | some x => exact isTold_flagOfDouble x
  | text s => exact isTold_flagOfText s
  | label l => exact isTold_flagOfText l.text
  | bytes bs =>
    rw [flag]
    cases Text.ofUtf8? bs with
    | none => exact isTold_fail _
    | some s => exact isTold_flagOfText s
  | _ => exact isTold_fail _

/-- A number out of its bounds is told. -/
theorem isTold_boundedInt (least most : Int) : Check.IsTold (boundedInt least most) := by
  intro v
  unfold boundedInt
  split
  · split
    · exact isTold_fail _
    · split
      · exact isTold_fail _
      · exact isTold_ok _
  · exact isTold_fail _

/-- A moment that could not be made is told. -/
private theorem isTold_ofMoment (m : Except MomentFault Moment) : (ofMoment m).IsTold := by
  cases m with
  | ok m => exact isTold_ok _
  | error fault => exact isTold_fail _

/-- What is no moment is told. -/
theorem isTold_moment : Check.IsTold moment := by
  intro v
  -- Numbers, texts and days are turned into moments, which may fail.
  cases v with
  | moment m => exact isTold_ok m
  | date d => exact isTold_ok _
  | text s => exact isTold_ofMoment _
  | label l => exact isTold_ofMoment _
  | bytes bs =>
    rw [moment]
    split
    · exact isTold_ofMoment _
    · exact isTold_fail _
  | int n =>
    rw [moment]
    split
    · exact isTold_ofMoment _
    · split
      · exact isTold_fail _
      · exact isTold_ofMoment _
  | double x => exact isTold_ofMoment _
  | decimal d => exact isTold_ofMoment _
  | _ => exact isTold_fail _

/-- A key of a table that is no text is told. -/
private theorem isTold_tableOf (es : Entries) (t : Table) : (tableOf es t).IsTold := by
  induction es generalizing t with
  | nil => exact isTold_ok t
  | cons e es ih =>
    obtain ⟨k, v⟩ := e
    have htold := isTold_text k
    rw [tableOf]
    cases hk : text k with
    | ok s => exact ih _
    | bad is =>
      -- The issues of the key stay, whatever the other keys give.
      have hne : is ≠ [] := by simpa [hk, Checked.IsTold] using htold
      intro heq
      have hissues := congrArg Checked.issues heq
      rw [Checked.issues_both] at hissues
      simp [Checked.issues, hne] at hissues

/-- What is no table is told. -/
theorem isTold_table : Check.IsTold table := by
  intro v
  unfold table
  split
  · exact isTold_tableOf _ _
  · exact isTold_fail _

end Field

/-! ## Rules -/

/-- The rule of a field: whether it has to be there, and the check of its value. -/
structure FieldRule where
  isRequired : Bool
  check : Field.Check Unit

namespace FieldRule

variable {α : Type}

/-- The field has to be there and to pass the check. -/
def required (check : Field.Check α) : FieldRule := ⟨true, fun v => (fun _ => ()) <$> check v⟩

/-- The field may be absent; otherwise it has to pass the check. -/
def optional (check : Field.Check α) : FieldRule := ⟨false, fun v => (fun _ => ()) <$> check v⟩

/-- Whether the field may hold the value, or be absent. -/
def Admits (r : FieldRule) : Option Value → Prop
  | none => r.isRequired = false
  | some v => r.check v = .ok ()

/-- What is reported of the field. -/
def report (r : FieldRule) (name : String) : Option Value → List Issue
  | none => if r.isRequired then [⟨[name], .missing⟩] else []
  | some v => ((r.check v).under name).issues

/-- The rule of a required field tells what its check tells. -/
theorem isTold_required {check : Field.Check α} (h : check.IsTold) :
    Field.Check.IsTold (required check).check := fun v => (h v).map _

/-- The rule of a field with a default tells what its check tells. -/
theorem isTold_optional {check : Field.Check α} (h : check.IsTold) :
    Field.Check.IsTold (optional check).check := fun v => (h v).map _

/-- Something is reported exactly where the value, or its absence, is not admitted. -/
private theorem report_eq_nil {r : FieldRule} (h : Field.Check.IsTold r.check) {name : String}
    {v : Option Value} : r.report name v = [] ↔ r.Admits v := by
  cases v with
  | none => cases hr : r.isRequired <;> simp [report, Admits, hr]
  | some v =>
    simp only [report, ((h v).under name).issues_eq_nil, Checked.under_eq_ok, Admits]
    exact ⟨fun ⟨_, hok⟩ => hok, fun hok => ⟨(), hok⟩⟩

/-- Whatever is reported of a field is reported at a path that starts with its name. -/
theorem exists_path_of_report {r : FieldRule} {name : String} {v : Option Value} {i : Issue}
    (h : i ∈ r.report name v) : ∃ rest, i.path = name :: rest := by
  -- The name of the field is the first part of the path, whatever the check objects to.
  cases v with
  | none =>
    cases hr : r.isRequired with
    | false => simp [report, hr] at h
    | true =>
      obtain rfl : i = ⟨[name], .missing⟩ := by simpa [report, hr] using h
      exact ⟨[], rfl⟩
  | some v =>
    rw [report, Checked.issues_under] at h
    obtain ⟨j, -, rfl⟩ := List.mem_map.mp h
    exact ⟨j.path, rfl⟩

end FieldRule

namespace Field

variable {α : Type} (es : Entries) (name : String) {check : Check α}

/-- The issues of a required field are those that its rule reports. -/
theorem issues_required (check : Check α) :
    (required es name check).issues
      = (FieldRule.required check).report name (Value.find? es name) := by
  unfold required
  cases Value.find? es name with
  | none => rfl
  | some v => simp [FieldRule.report, FieldRule.required, Checked.issues_under, Checked.issues_map]

/-- The issues of a field with a default are those that its rule reports. -/
theorem issues_optional (default : α) (check : Check α) :
    (optional es name default check).issues
      = (FieldRule.optional check).report name (Value.find? es name) := by
  unfold optional
  cases Value.find? es name with
  | none => rfl
  | some v => simp [FieldRule.report, FieldRule.optional, Checked.issues_under, Checked.issues_map]

/-- A required field that is missing or fails its check is told. -/
theorem Check.IsTold.required (h : check.IsTold) : (Field.required es name check).IsTold := by
  unfold Field.required
  split
  · exact (h _).under name
  · exact (Checked.isTold_fail _).under name

/-- A field with a default that fails its check is told. -/
theorem Check.IsTold.optional (h : check.IsTold) (default : α) :
    (Field.optional es name default check).IsTold := by
  unfold Field.optional
  split
  · exact (h _).under name
  · exact Checked.isTold_ok _

end Field

/-! ## Schemas -/

namespace Schema

open AccessGraph.Field (boundedText nullable word flag boundedInt table)

/-- The rule of metadata. -/
def metadataRule : FieldRule := .optional table

/-- The rule of a name of bounded length. -/
def nameRule (most : Nat) : FieldRule := .required (boundedText 1 (some most))

/-- The rule of a description. -/
def descriptionRule : FieldRule := .optional (nullable (boundedText 0 (some 500)))

/-- The rule of a text that may be absent. -/
def qualifierRule : FieldRule := .optional (nullable Field.text)

/-- The rule of a table that may be absent. -/
def tableRule : FieldRule := .optional (nullable table)

/-- The rule of an end of a window. -/
def endRule : FieldRule := .optional (nullable Field.moment)

/-- The rule of a tag. -/
def tagRule (expected : String) : FieldRule :=
  .required fun v => if v.text? = some expected then .ok () else .fail (.notOneOf [expected])

/-- The rules of the fields of a validity window. -/
def windowRules : List (String × FieldRule) := [("valid_from", endRule), ("valid_until", endRule)]

/-- The rules of the fields, in the order of the fields. -/
def rules : Schema → List (String × FieldRule)
  | .window => windowRules
  | .account => [("metadata", metadataRule)]
  | .override => windowRules ++ [("permission_name", .required (boundedText 1 none)),
      ("is_grant", .required flag), ("metadata", metadataRule)]
  | .group => [("name", nameRule 100), ("description", descriptionRule), ("metadata", metadataRule)]
  | .role => windowRules ++ [("name", nameRule 50), ("description", descriptionRule),
      ("rank", .optional (boundedInt 0 100)), ("metadata", metadataRule)]
  | .assignment => windowRules ++ [("group_id", .required Field.text), ("metadata", metadataRule)]
  | .systemPermission => [(tagField, tagRule "system"), ("name", nameRule 100),
      ("description", descriptionRule),
      ("system_resource", .required (word Resource.values Resource.text)),
      ("action", .required (word Action.values Action.text)), ("metadata", metadataRule)]
  | .dataPermission => [(tagField, tagRule "data"), ("name", nameRule 100),
      ("description", descriptionRule), ("scope", .required (word Scope.values Scope.text)),
      ("action", .required (word Action.values Action.text)), ("schema_name", qualifierRule),
      ("table_name", qualifierRule), ("column_name", qualifierRule), ("constraints", tableRule),
      ("conditions", tableRule), ("metadata", metadataRule)]

/-- The rule of a tag tells what is not the tag. -/
private theorem isTold_tagRule (expected : String) : Field.Check.IsTold (tagRule expected).check :=
  FieldRule.isTold_required (Field.isTold_tag expected)

/-- The rules of a schema are for its fields, in order. -/
theorem names_rules (s : Schema) : s.rules.map Prod.fst = s.fieldNames := by
  cases s <;> rfl

/-- Every rule says what is wrong with a value that it does not admit. -/
theorem isTold_rules (s : Schema) : ∀ x ∈ s.rules, Field.Check.IsTold x.2.check := by
  have hmetadata := FieldRule.isTold_optional Field.isTold_table
  have hname := fun most => FieldRule.isTold_required (Field.isTold_boundedText 1 (some most))
  have hdescription :=
    FieldRule.isTold_optional (Field.isTold_boundedText 0 (some 500)).nullable
  have hqualifier := FieldRule.isTold_optional Field.isTold_text.nullable
  have htable := FieldRule.isTold_optional Field.isTold_table.nullable
  have hend := FieldRule.isTold_optional Field.isTold_moment.nullable
  have haction := FieldRule.isTold_required (Field.isTold_word Action.values Action.text)
  have htag := isTold_tagRule
  -- The rules of a schema are few kinds of rules, told above, so each is looked up.
  cases s <;> intro x hx <;>
    simp only [rules, windowRules, List.cons_append, List.nil_append, List.mem_cons,
      List.not_mem_nil, or_false] at hx
  case window => rcases hx with rfl | rfl <;> exact hend
  case account => exact hx ▸ hmetadata
  case override =>
    rcases hx with rfl | rfl | rfl | rfl | rfl
    exacts [hend, hend, FieldRule.isTold_required (Field.isTold_boundedText 1 none),
      FieldRule.isTold_required Field.isTold_flag, hmetadata]
  case group =>
    rcases hx with rfl | rfl | rfl
    exacts [hname 100, hdescription, hmetadata]
  case role =>
    rcases hx with rfl | rfl | rfl | rfl | rfl | rfl
    exacts [hend, hend, hname 50, hdescription,
      FieldRule.isTold_optional (Field.isTold_boundedInt 0 100), hmetadata]
  case assignment =>
    rcases hx with rfl | rfl | rfl | rfl
    exacts [hend, hend, FieldRule.isTold_required Field.isTold_text, hmetadata]
  case systemPermission =>
    rcases hx with rfl | rfl | rfl | rfl | rfl | rfl
    exacts [htag "system", hname 100, hdescription,
      FieldRule.isTold_required (Field.isTold_word Resource.values Resource.text), haction,
      hmetadata]
  case dataPermission =>
    rcases hx with rfl | rfl | rfl | rfl | rfl | rfl | rfl | rfl | rfl | rfl | rfl
    exacts [htag "data", hname 100, hdescription,
      FieldRule.isTold_required (Field.isTold_word Scope.values Scope.text), haction, hqualifier,
      hqualifier, hqualifier, htable, htable, hmetadata]

/-- What the rules report, in the order of the fields. -/
def fieldIssues (s : Schema) (es : Entries) : List Issue :=
  s.rules.flatMap fun x => x.2.report x.1 (Value.find? es x.1)

/-- Whether the field may hold the value, or be absent, by the rule of the field. -/
def Admits (s : Schema) (field : String) (v : Option Value) : Prop :=
  ∀ rule, s.rules.lookup field = some rule → rule.Admits v

section

variable {s : Schema} {es : Entries} {x : String × FieldRule} (hx : x ∈ s.rules)

include hx

/-- A schema admits what the rule of the field admits. -/
theorem admits_iff {v : Option Value} : s.Admits x.1 v ↔ x.2.Admits v := by
  have hlookup := lookup_of_nodup (s.names_rules ▸ s.nodup_fieldNames) hx
  simp [Admits, hlookup]

/-- The rule of a field reports nothing just if the schema admits what is there. -/
theorem report_eq_nil {v : Option Value} : x.2.report x.1 v = [] ↔ s.Admits x.1 v := by
  rw [FieldRule.report_eq_nil (s.isTold_rules x hx), admits_iff hx]

end

/-- There is no issue with a field just if the schema admits what stands in each. -/
theorem fieldIssues_eq_nil {s : Schema} {es : Entries} :
    s.fieldIssues es = [] ↔ ∀ f ∈ s.fieldNames, s.Admits f (Value.find? es f) := by
  rw [fieldIssues, List.flatMap_eq_nil_iff, ← names_rules, List.forall_mem_map]
  exact forall₂_congr fun x hx => report_eq_nil hx

end Schema

/-! ## The check of the whole -/

/-- The entries hold a value under the name that stands for this one. -/
def Holds {α : Type} (es : Entries) (name : String) (check : Field.Check α) (a : α) : Prop :=
  ∃ v, Value.find? es name = some v ∧ check v = .ok a

/-- Why entries of which every field is sound still make no configuration: the ends of a window do
not fit together, or a permission on storage lacks a part of its location. -/
inductive Schema.Breaks (es : Entries) : Schema → Cause → Prop
  | awareness {s : Schema} {a b : Moment} : s.isA .window = true →
    Holds es "valid_from" Field.moment a → Holds es "valid_until" Field.moment b →
    a.isAware ≠ b.isAware → Breaks es s .mixedAwareness
  | order {s : Schema} {a b : Moment} : s.isA .window = true →
    Holds es "valid_from" Field.moment a → Holds es "valid_until" Field.moment b →
    a.isAware = b.isAware → ¬ a.isBefore b → Breaks es s .windowOrder
  | location {key : String} {metadata : Table} :
    Holds es "scope" (Field.word Scope.values Scope.text) .storage →
    metadataField es = .ok metadata →
    ["bucket_name", "path_pattern"].find? (fun key =>
      !((metadata.lookup key).map Value.isTruthy).getD false) = some key →
    Breaks es .dataPermission (.storageLocation key)

/-- What is wrong with a configuration as a whole. -/
def Config.fault? : Config → Option Cause
  | .window c => c.fault?
  | .override c => c.window.fault?
  | .role c => c.window.fault?
  | .assignment c => c.window.fault?
  | .dataPermission c => c.fault?
  | .account _ | .group _ | .systemPermission _ => none

/-- A configuration without a window that is no data permission has no fault as a whole. -/
theorem Config.fault?_eq_none {c : Config} (hwindow : c.schema.isA .window = false)
    (hdata : c.schema ≠ .dataPermission) : c.fault? = none := by
  cases c with
  | account => rfl
  | group => rfl
  | systemPermission => rfl
  | dataPermission => exact absurd rfl hdata
  | _ => exact absurd hwindow Bool.noConfusion

section

variable {es : Entries}

/-- An end was read as a moment just if that moment stands there. -/
private theorem ValidityWindow.end_eq_some {name : String} {o : Option Moment} {a : Moment}
    (h : Field.optional es name none (Field.nullable Field.moment) = .ok o) :
    o = some a ↔ Holds es name Field.moment a := by
  -- An end that was left out is none, and so is null, which is no moment either.
  rcases Field.optional_eq_ok.mp h with ⟨hnone, rfl⟩ | ⟨v, hv, hcheck⟩
  · simp [Holds, hnone]
  · simp only [Holds, hv, Option.some.injEq, exists_eq_left']
    cases v with
    | null =>
      obtain rfl := Checked.ok.inj hcheck
      simp [Field.moment, Checked.fail]
    | _ =>
      rw [Field.nullable_of_ne_null (by simp), Checked.map_eq] at hcheck
      obtain ⟨m, hm, rfl⟩ := Checked.map_eq_ok.mp hcheck
      simp [hm]

/-- A window has a fault for one of two reasons: just one of its ends has a zone, or both or neither
have and the first is not before the second. -/
private theorem ValidityWindow.fault?_eq_some {w : ValidityWindow} {cause : Cause} :
    w.fault? = some cause ↔ ∃ a b, w.validFrom = some a ∧ w.validUntil = some b ∧
      (a.isAware ≠ b.isAware ∧ cause = .mixedAwareness ∨
        a.isAware = b.isAware ∧ ¬ a.isBefore b ∧ cause = .windowOrder) := by
  obtain ⟨validFrom, validUntil⟩ := w
  cases validFrom with
  | none => simp [fault?]
  | some a =>
    cases validUntil with
    | none => simp [fault?]
    | some b =>
      -- With both ends there, their zones are compared first and then their order.
      simp only [fault?, bne_iff_ne, ne_eq, Option.some.injEq, exists_and_left, exists_eq_left']
      by_cases haware : a.isAware = b.isAware
      · by_cases horder : a.isBefore b
        · simp [haware, horder]
        · simp only [haware, horder, Bool.false_eq_true, not_true_eq_false, not_false_eq_true,
            ↓reduceIte, Option.some.injEq, false_and, true_and, false_or]
          exact eq_comm
      · simp only [haware, not_false_eq_true, ↓reduceIte, Option.some.injEq, true_and, false_and,
          or_false]
        exact eq_comm

/-- The check of a window fails for what the entries hold. -/
private theorem Schema.breaks_window {s : Schema} (hs : s.isA .window = true) {w : ValidityWindow}
    (h : ValidityWindow.ends es = .ok w) {cause : Cause} :
    w.fault? = some cause ↔ s.Breaks es cause := by
  obtain ⟨hfrom, huntil⟩ := ValidityWindow.ends_eq_ok.mp h
  -- The ends that were read are the moments that stand there.
  simp only [ValidityWindow.fault?_eq_some, ValidityWindow.end_eq_some hfrom,
    ValidityWindow.end_eq_some huntil]
  constructor
  · rintro ⟨a, b, ha, hb, ⟨haware, rfl⟩ | ⟨haware, horder, rfl⟩⟩
    · exact .awareness hs ha hb haware
    · exact .order hs ha hb haware horder
  · -- A schema with a window has no location to break.
    intro hbreaks
    cases hbreaks with
    | awareness _ ha hb haware => exact ⟨_, _, ha, hb, .inl ⟨haware, rfl⟩⟩
    | order _ ha hb haware horder => exact ⟨_, _, ha, hb, .inr ⟨haware, horder, rfl⟩⟩
    | location => simp [isA] at hs

/-- The check of a location fails for what the entries hold. -/
private theorem Schema.breaks_location {p : DataPermission}
    (hscope : Field.required es "scope" (Field.word Scope.values Scope.text) = .ok p.scope)
    (hmetadata : metadataField es = .ok p.metadata) {cause : Cause} :
    p.fault? = some cause ↔ Schema.dataPermission.Breaks es cause := by
  have hholds : Holds es "scope" (Field.word Scope.values Scope.text) p.scope :=
    Field.required_eq_ok.mp hscope
  constructor
  · intro hfault
    unfold DataPermission.fault? at hfault
    split at hfault
    · next hstorage =>
      obtain ⟨key, hkey, rfl⟩ := Option.map_eq_some_iff.mp hfault
      exact .location (hstorage ▸ hholds) hmetadata hkey
    · simp at hfault
  · intro hbreaks
    cases hbreaks with
    | awareness hs => simp [isA] at hs
    | order hs => simp [isA] at hs
    | location hstorage hm hkey =>
      -- The metadata and the scope that the schema speaks of are those that were read.
      obtain rfl := Checked.ok.inj (hm.symm.trans hmetadata)
      obtain ⟨v, hv, hword⟩ := hstorage
      obtain ⟨u, hu, hword'⟩ := hholds
      obtain rfl := Option.some.inj (hv.symm.trans hu)
      have hstorage : p.scope = .storage := Checked.ok.inj (hword'.symm.trans hword)
      rw [DataPermission.fault?, if_pos hstorage, hkey]
      rfl

/-- A schema without such a check. -/
private theorem Schema.not_breaks {s : Schema} (hwindow : s.isA .window = false)
    (hdata : s ≠ .dataPermission) {cause : Cause} : ¬ s.Breaks es cause := by
  intro h
  cases h with
  | awareness hs => simp [hs] at hwindow
  | order hs => simp [hs] at hwindow
  | location => exact hdata rfl

end

/-! ## The two stages -/

section

variable (es : Entries)

/-- Issues with metadata are told. -/
theorem isTold_metadataField : (metadataField es).IsTold := Field.isTold_table.optional es _ _

theorem isTold_nameField (most : Nat) : (nameField es most).IsTold :=
  (Field.isTold_boundedText 1 (some most)).required es _

theorem isTold_descriptionField : (descriptionField es).IsTold :=
  (Field.isTold_boundedText 0 (some 500)).nullable.optional es _ _

theorem isTold_qualifierField (field : String) : (qualifierField es field).IsTold :=
  Field.isTold_text.nullable.optional es _ _

theorem isTold_tableField (field : String) : (tableField es field).IsTold :=
  Field.isTold_table.nullable.optional es _ _

/-- Issues with a tag are told. -/
theorem isTold_tag (expected : String) : (tag es expected).IsTold :=
  (Field.isTold_tag expected).required es _

/-- Issues with a word are told. -/
theorem isTold_word {α : Type} (field : String) (values : List α) (wordText : α → String) :
    (Field.required es field (Field.word values wordText)).IsTold :=
  (Field.isTold_word values wordText).required es _

theorem isTold_ends : (ValidityWindow.ends es).IsTold :=
  ((Field.isTold_moment.nullable.optional es _ _).map _).seq
    (Field.isTold_moment.nullable.optional es _ _)

/-- The issues with the ends of a window are those that their rules report. -/
theorem issues_ends :
    (ValidityWindow.ends es).issues
      = Schema.windowRules.flatMap fun x => x.2.report x.1 (Value.find? es x.1) := by
  rw [ValidityWindow.ends, Checked.issues_seq, Checked.issues_map, Field.issues_optional,
    Field.issues_optional]
  simp [Schema.windowRules, Schema.endRule]

end

namespace Schema

/-- The fields of a configuration as they are read one by one, before it is looked at as a whole. -/
structure IsStage (s : Schema) (es : Entries) (stage : Checked Config) : Prop where
  told : stage.IsTold
  issues : stage.issues = s.fieldIssues es
  fault : ∀ c, stage = .ok c → ∀ cause, c.fault? = some cause ↔ s.Breaks es cause

end Schema

namespace Checked

/-- The final check of a configuration can be made before or after it is taken as one. -/
theorem map_sound {α : Type} {make : α → Config} {fault? : α → Option Cause}
    (h : ∀ a, (make a).fault? = fault? a) (stage : Checked α) :
    make <$> stage.andThen (sound fault?) = (make <$> stage).andThen (sound Config.fault?) := by
  cases stage with
  | bad is => rfl
  | ok a =>
    show make <$> sound fault? a = sound Config.fault? (make a)
    rw [sound, sound, h]
    cases fault? a <;> rfl

/-- A final check that never finds a fault changes nothing. -/
private theorem eq_sound_of_none {stage : Checked Config}
    (h : ∀ c, stage = .ok c → c.fault? = none) :
    stage = stage.andThen (sound Config.fault?) := by
  cases stage with
  | bad is => rfl
  | ok c =>
    show _ = sound Config.fault? c
    rw [sound, h c rfl]

end Checked

namespace Schema

variable (es : Entries)

/-- A window is read field by field, and then checked as a whole. -/
private theorem exists_stage_window : ∃ stage, window.IsStage es stage ∧
    window.readConfig es = stage.andThen (.sound Config.fault?) := by
  refine ⟨_, ⟨(isTold_ends es).map _, ?_, ?_⟩, Checked.map_sound (fun _ => rfl) _⟩
  · rw [Checked.issues_map, issues_ends]
    rfl
  · intro c hc
    obtain ⟨w, hw, rfl⟩ := Checked.map_eq_ok.mp hc
    exact fun _ => breaks_window rfl hw

/-- Where nothing is asked of the whole, the first stage is the only one. -/
private theorem exists_stage_of_not_breaks {s : Schema} (hwindow : s.isA .window = false)
    (hdata : s ≠ .dataPermission) (htold : (s.readConfig es).IsTold)
    (hissues : (s.readConfig es).issues = s.fieldIssues es) :
    ∃ stage, s.IsStage es stage ∧ s.readConfig es = stage.andThen (.sound Config.fault?) := by
  have hnone : ∀ c, s.readConfig es = .ok c → c.fault? = none := by
    intro c hc
    obtain rfl := schema_of_readConfig hc
    exact Config.fault?_eq_none hwindow hdata
  refine ⟨_, ⟨htold, hissues, fun c hc cause => ?_⟩, Checked.eq_sound_of_none hnone⟩
  simp [hnone c hc, not_breaks hwindow hdata]

/-- An account is read field by field, and a check as a whole adds nothing. -/
private theorem exists_stage_account : ∃ stage, account.IsStage es stage ∧
    account.readConfig es = stage.andThen (.sound Config.fault?) := by
  refine exists_stage_of_not_breaks es rfl (by decide) ?_ ?_
  · exact ((isTold_metadataField es).map _).map _
  · show (Config.account <$> (AccountConfig.mk <$> metadataField es)).issues = _
    rw [Checked.issues_map, Checked.issues_map, metadataField, Field.issues_optional]
    simp [fieldIssues, rules, metadataRule]

/-- An override is read field by field, and then its window is checked as a whole. -/
private theorem exists_stage_override : ∃ stage, override.IsStage es stage ∧
    override.readConfig es = stage.andThen (.sound Config.fault?) := by
  refine ⟨_, ⟨?_, ?_, ?_⟩, Checked.map_sound (fun _ => rfl) _⟩
  · exact ((((isTold_ends es).map _).seq ((Field.isTold_boundedText 1 none).required es _)).seq
      (Field.isTold_flag.required es _)).seq (isTold_metadataField es) |>.map _
  · simp only [Checked.issues_map, Checked.issues_seq, issues_ends, Field.issues_required,
      metadataField, Field.issues_optional, fieldIssues, rules, List.flatMap_append]
    simp [metadataRule]
  · -- Of the fields only the window matters to the final check.
    intro c hc
    obtain ⟨o, ho, rfl⟩ := Checked.map_eq_ok.mp hc
    rw [Checked.seq_eq_ok] at ho
    simp only [Checked.exists_seq_ok, Checked.exists_map_ok] at ho
    obtain ⟨w, hw, n, -, g, -, m, -, rfl⟩ := ho
    exact fun _ => breaks_window rfl hw

/-- A group is read field by field, and a check as a whole adds nothing. -/
private theorem exists_stage_group : ∃ stage, group.IsStage es stage ∧
    group.readConfig es = stage.andThen (.sound Config.fault?) := by
  refine exists_stage_of_not_breaks es rfl (by decide) ?_ ?_
  · exact (((isTold_nameField es 100).map _).seq (isTold_descriptionField es)).seq
      (isTold_metadataField es) |>.map _
  · show (Config.group <$> GroupConfig.read es).issues = _
    simp only [GroupConfig.read, Checked.issues_map, Checked.issues_seq, nameField,
      descriptionField, metadataField, Field.issues_required, Field.issues_optional, fieldIssues,
      rules]
    simp [nameRule, descriptionRule, metadataRule]

/-- A role is read field by field, and then its window is checked as a whole. -/
private theorem exists_stage_role : ∃ stage, role.IsStage es stage ∧
    role.readConfig es = stage.andThen (.sound Config.fault?) := by
  refine ⟨_, ⟨?_, ?_, ?_⟩, Checked.map_sound (fun _ => rfl) _⟩
  · exact (((((isTold_ends es).map _).seq (isTold_nameField es 50)).seq
      (isTold_descriptionField es)).seq ((Field.isTold_boundedInt 0 100).optional es _ _)).seq
      (isTold_metadataField es) |>.map _
  · simp only [Checked.issues_map, Checked.issues_seq, issues_ends, nameField, descriptionField,
      metadataField, Field.issues_required, Field.issues_optional, fieldIssues, rules,
      List.flatMap_append]
    simp [nameRule, descriptionRule, metadataRule]
  · -- Of the fields only the window matters to the final check.
    intro c hc
    obtain ⟨o, ho, rfl⟩ := Checked.map_eq_ok.mp hc
    rw [Checked.seq_eq_ok] at ho
    simp only [Checked.exists_seq_ok, Checked.exists_map_ok] at ho
    obtain ⟨w, hw, n, -, d, -, k, -, m, -, rfl⟩ := ho
    exact fun _ => breaks_window rfl hw

/-- A role assignment is read field by field, and then its window is checked as a whole. -/
private theorem exists_stage_assignment : ∃ stage, assignment.IsStage es stage ∧
    assignment.readConfig es = stage.andThen (.sound Config.fault?) := by
  refine ⟨_, ⟨?_, ?_, ?_⟩, Checked.map_sound (fun _ => rfl) _⟩
  · exact (((isTold_ends es).map _).seq (Field.isTold_text.required es _)).seq
      (isTold_metadataField es) |>.map _
  · simp only [Checked.issues_map, Checked.issues_seq, issues_ends, Field.issues_required,
      metadataField, Field.issues_optional, fieldIssues, rules, List.flatMap_append]
    simp [metadataRule]
  · -- Of the fields only the window matters to the final check.
    intro c hc
    obtain ⟨a, ha, rfl⟩ := Checked.map_eq_ok.mp hc
    rw [Checked.seq_eq_ok] at ha
    simp only [Checked.exists_seq_ok, Checked.exists_map_ok] at ha
    obtain ⟨w, hw, g, -, m, -, rfl⟩ := ha
    exact fun _ => breaks_window rfl hw

/-- A system permission is read field by field, and a check as a whole adds nothing. -/
private theorem exists_stage_systemPermission : ∃ stage, systemPermission.IsStage es stage ∧
    systemPermission.readConfig es = stage.andThen (.sound Config.fault?) := by
  refine exists_stage_of_not_breaks es rfl (by decide) ?_ ?_
  · exact ((((((isTold_tag es _).map _).seq (isTold_nameField es 100)).seq
      (isTold_descriptionField es)).seq (isTold_word es _ _ _)).seq (isTold_word es _ _ _)).seq
      (isTold_metadataField es) |>.map _
  · show (Config.systemPermission <$> SystemPermission.read es).issues = _
    simp only [SystemPermission.read, Checked.issues_map, Checked.issues_seq, tag, nameField,
      descriptionField, metadataField, Field.issues_required, Field.issues_optional, fieldIssues,
      rules]
    simp [tagRule, nameRule, descriptionRule, metadataRule]

/-- A data permission is read field by field, and then its location is checked as a whole. -/
private theorem exists_stage_dataPermission : ∃ stage, dataPermission.IsStage es stage ∧
    dataPermission.readConfig es = stage.andThen (.sound Config.fault?) := by
  refine ⟨_, ⟨?_, ?_, ?_⟩, Checked.map_sound (fun _ => rfl) _⟩
  · exact (((((((((((isTold_tag es _).map _).seq (isTold_nameField es 100)).seq
      (isTold_descriptionField es)).seq (isTold_word es _ _ _)).seq (isTold_word es _ _ _)).seq
      (isTold_qualifierField es _)).seq (isTold_qualifierField es _)).seq
      (isTold_qualifierField es _)).seq (isTold_tableField es _)).seq
      (isTold_tableField es _)).seq (isTold_metadataField es) |>.map _
  · simp only [Checked.issues_map, Checked.issues_seq, tag, nameField, descriptionField,
      qualifierField, tableField, metadataField, Field.issues_required, Field.issues_optional,
      fieldIssues, rules]
    simp [tagRule, nameRule, descriptionRule, qualifierRule, tableRule, metadataRule]
  · -- The final check is of the scope and the metadata.
    intro c hc
    obtain ⟨p, hp, rfl⟩ := Checked.map_eq_ok.mp hc
    rw [Checked.seq_eq_ok] at hp
    simp only [Checked.exists_seq_ok, Checked.exists_map_ok] at hp
    obtain ⟨_, -, n, -, d, -, s, hs, a, -, q, -, t, -, u, -, v, -, w, -, m, hm, rfl⟩ := hp
    exact fun _ => breaks_location hs hm

/-- A configuration is read field by field, and then looked at as a whole. -/
theorem exists_stage (s : Schema) : ∃ stage, s.IsStage es stage ∧
    s.readConfig es = stage.andThen (.sound Config.fault?) := by
  cases s with
  | window => exact exists_stage_window es
  | account => exact exists_stage_account es
  | override => exact exists_stage_override es
  | group => exact exists_stage_group es
  | role => exact exists_stage_role es
  | assignment => exact exists_stage_assignment es
  | systemPermission => exact exists_stage_systemPermission es
  | dataPermission => exact exists_stage_dataPermission es

end Schema

end AccessGraph
