import AccessGraph.Proofs.Compilation.Sources

/-!
# Every reference counts once

A reference is visited once, and each visit leaves a link or a diagnosis.  Links are never blank, so
none of them is dropped from the statements: links and diagnostics together are as many as the
references that groups, roles and accounts hold.  `Registry.compile_matches_reference` puts this
together with the reference definition of the statements.
-/

namespace AccessGraph

open Sql (Row)

namespace Registry

variable {r : Registry}

/-! ## Links -/

/-- A reference becomes a link just when its target is registered. -/
theorem isLeft_outcome (v : Visit) : (v.outcome r).isLeft = r.resolves v.reference := by
  have hentity : ∀ kind (id : String), (r.entity kind id).toOption.isSome = r.has kind id := by
    intro kind id
    cases kind <;> simp [entity, setting, permission, group, role, account, toOption_find, has,
      Store.contains]
  -- Both ask whether the store of the target's kind holds the identifier.
  have htarget : (v.target? r).isSome = r.resolves v.reference := by
    unfold Visit.target? resolves Visit.reference
    cases v.target.text? with
    | none => rfl
    | some id => simpa using hentity v.relation.targetKind id
  rw [← htarget, Visit.outcome]
  cases v.target? r <;> rfl

/-- The statement of a link is not blank, whatever it joins. -/
theorem isBlank_link (row : Row) : Text.isBlank row.link = false := by
  have hI : Text.isBlankChar 'I' = false := by decide
  simp [Text.isBlank, Row.link, Row.inline, Row.head, hI]

/-- What is written for a link is not blank. -/
private theorem isBlank_of_isLink {s : Source} (hs : s.isLink = true) :
    Text.isBlank (s.text r.names) = false := by
  cases s with
  | link v target => exact isBlank_link _
  | marker _ => simp [Source.isLink] at hs
  | emitted _ _ => simp [Source.isLink] at hs
  | override _ _ => simp [Source.isLink] at hs

/-- No row is a link. -/
private theorem filter_isLink_rows (kind : Kind) : (r.rows kind).filter Source.isLink = [] := by
  rw [List.filter_eq_nil_iff]
  intro s hs
  obtain ⟨e, -, hs⟩ := List.mem_flatMap.mp hs
  obtain ⟨t, -, rfl⟩ := List.mem_map.mp hs
  exact Bool.false_ne_true

/-- All that is written for a relation is a link. -/
private theorem filter_isLink_links (relation : Relation) :
    (r.links relation).filter Source.isLink = r.links relation := by
  rw [List.filter_eq_self]
  intro s hs
  obtain ⟨v, -, hv⟩ := List.mem_filterMap.mp hs
  unfold Visit.outcome at hv
  split at hv
  · obtain rfl := Option.some.inj hv
    rfl
  · simp at hv

/-- The links among the sources are those of the relations, in order. -/
theorem filter_isLink_sources : r.sources.filter Source.isLink = Relation.all.flatMap r.links := by
  -- Markers, rows and overrides drop out; what is left are the phases of the relations.
  have hoverrides : (r.block .overrides).filter Source.isLink = [] := by
    rw [List.filter_eq_nil_iff]
    intro s hs
    obtain ⟨a, -, hs⟩ := List.mem_flatMap.mp hs
    obtain ⟨o, -, rfl⟩ := List.mem_map.mp hs
    exact Bool.false_ne_true
  have hmarker : ∀ p : Phase, Source.isLink (.marker p) = false := fun _ => rfl
  simp only [sources, Phase.all, List.flatMap_cons, List.flatMap_nil, List.append_nil,
    List.filter_append, List.filter_cons, hmarker, Bool.false_eq_true, ↓reduceIte, hoverrides]
  simp [block, filter_isLink_rows, filter_isLink_links, Relation.all]

/-- Every visit leads to a link or is missing. -/
private theorem length_links_add_missing (relation : Relation) :
    (r.links relation).length + (r.missing relation).length = (r.visits relation).length := by
  unfold links missing
  -- Each visit adds one to one of the two lengths on the left.
  induction r.visits relation with
  | nil => rfl
  | cons v vs ih =>
    cases hv : v.target? r with
    | none =>
      have houtcome : (v.outcome r).getLeft? = none := by rw [Visit.outcome, hv]; rfl
      simp only [List.filterMap_cons, houtcome, List.filter_cons, hv, Option.isNone_none,
        ↓reduceIte, List.length_cons]
      omega
    | some target =>
      have houtcome : (v.outcome r).getLeft? = some (.link v target) := by
        rw [Visit.outcome, hv]; rfl
      simp only [List.filterMap_cons, houtcome, List.filter_cons, hv, Option.isNone_some,
        Bool.false_eq_true, ↓reduceIte, List.length_cons]
      omega

/-! ## Diagnoses -/

/-- What is reported as missing is the text of the target, where it is a text. -/
theorem missingId_reference {v : Visit} (h : v.target.text?.isSome = true) :
    v.reference.missingId = v.target.text?.getD "" := by
  unfold Reference.missingId Visit.reference
  cases hv : v.target with
  | text s => rfl
  | label l => rfl
  | _ => simp [hv, Value.text?] at h

/-- The diagnostics of missing targets are the diagnoses of the visits, in order. -/
private theorem map_missing {relation : Relation}
    (hids : ∀ v ∈ r.visits relation, v.target.text?.isSome = true) :
    (r.missing relation).map (fun v =>
        (v.reference.diagnostic.relation, v.reference.diagnostic.ownerId,
          v.reference.diagnostic.missingId))
      = (r.visits relation).filterMap fun v => (v.outcome r).getRight? := by
  unfold missing
  -- The list of visits is arbitrary from here on; only its identifiers have to be texts.
  generalize r.visits relation = vs at hids ⊢
  induction vs with
  | nil => rfl
  | cons v vs ih =>
    obtain ⟨hv, hvs⟩ := List.forall_mem_cons.mp hids
    -- The head is diagnosed just when it is missing, with the same three texts.
    cases htarget : v.target? r with
    | none =>
      have houtcome : (v.outcome r).getRight? = some (v.relation.ownerKind.innerNoun,
          v.owner.identifier.text, v.target.text?.getD "") := by
        rw [Visit.outcome, htarget]; rfl
      have hmissing : v.reference.diagnostic.missingId = v.target.text?.getD "" :=
        missingId_reference hv
      simp only [List.filter_cons, htarget, Option.isNone_none, ↓reduceIte, List.map_cons,
        List.filterMap_cons, houtcome, ih hvs, hmissing]
      rfl
    | some target =>
      have houtcome : (v.outcome r).getRight? = none := by rw [Visit.outcome, htarget]; rfl
      simp only [List.filter_cons, htarget, Option.isNone_some, Bool.false_eq_true, ↓reduceIte,
        List.filterMap_cons, houtcome, ih hvs]

/-! ## The reference definition -/

/-- How many references the groups, roles and accounts of a registry hold. -/
def referenceCount (r : Registry) : Nat :=
  (r.groups.toList.flatMap fun e => e.groupPermissions).length
    + (r.roles.toList.flatMap fun e => e.rolePermissions).length
    + (r.roles.toList.flatMap fun e => e.roleGroups).length
    + (r.accounts.toList.flatMap fun e => e.accountRoles).length

/-- A relation is visited once for each target that an owner lists. -/
theorem length_visits (relation : Relation) :
    (r.visits relation).length
      = ((r.ofKind relation.ownerKind).flatMap (Entity.targets relation)).length := by
  simp only [visits, List.length_flatMap, List.length_map]

/-- Every reference is visited once. -/
private theorem length_allVisits : r.allVisits.length = r.referenceCount := by
  simp only [allVisits, Relation.all, List.flatMap_cons, List.flatMap_nil, List.append_nil,
    List.length_append, length_visits, ofKind, Relation.ownerKind, List.flatMap_map,
    Entity.targets, referenceCount]
  omega

/-- Compilation equals its reference definition: it succeeds, its statements are those of the
sources without the blank ones, and its diagnostics are the diagnoses of the visits.  A visit has
one outcome, which is a link just when its target is registered; links are never blank, so there
are as many links and diagnostics together as there are references. -/
theorem compile_matches_reference (h : r.Emits)
    (hids : ∀ v ∈ r.allVisits, v.target.text?.isSome = true) :
    ∃ c, r.compile.result = .ok c ∧
      c.statements = (r.sources.map (Source.text r.names)).filter (fun s => !Text.isBlank s) ∧
      c.diagnostics.map (fun d => (d.relation, d.ownerId, d.missingId))
        = r.allVisits.filterMap (fun v => (v.outcome r).getRight?) ∧
      (∀ v ∈ r.allVisits, (v.outcome r).isLeft = r.resolves v.reference) ∧
      (∀ p : Phase, Text.isBlank p.marker = false) ∧
      (∀ s ∈ r.sources, s.isLink = true → Text.isBlank (s.text r.names) = false) ∧
      (r.sources.filter Source.isLink).length + c.diagnostics.length = r.referenceCount := by
  refine ⟨_, compile_eq_sources h, rfl, ?_, fun v _ => isLeft_outcome v, isBlank_marker,
    fun _ _ => isBlank_of_isLink, ?_⟩
  · -- Diagnostics are those of the four relations, one after another.
    have hrelation : ∀ relation, ∀ v ∈ r.visits relation, v.target.text?.isSome = true :=
      fun relation v hv =>
        hids v (List.mem_flatMap.mpr ⟨relation, Relation.mem_all relation, hv⟩)
    simp only [allVisits, Relation.all, List.flatMap_cons, List.flatMap_nil, List.append_nil,
      List.map_append, List.filterMap_append, List.map_map, Function.comp_def,
      map_missing (hrelation _)]
  · -- For each relation, links and missing targets together are as many as the visits.
    have hgroup := length_links_add_missing (r := r) .groupPermission
    have hrole := length_links_add_missing (r := r) .rolePermission
    have hassignment := length_links_add_missing (r := r) .roleGroup
    have haccount := length_links_add_missing (r := r) .accountRole
    rw [filter_isLink_sources, ← length_allVisits, allVisits]
    simp only [Relation.all, List.flatMap_cons, List.flatMap_nil, List.append_nil,
      List.length_append, List.length_map]
    omega

/-- A graph of scripts: a group refers twice to a permission and once to nothing, and an account
emits a blank statement. -/
def scripted : Registry :=
  { empty ⟨"access", "auth"⟩ with
    permissions := ⟨[("p", .scripted ⟨"p", "read", .statement "INSERT p;", "p", [], [], []⟩)]⟩
    groups := ⟨[("g", .scripted ⟨"g", "staff", .statement "INSERT g;", "g",
      [.text "p", .text "gone", .text "p"], [], []⟩)]⟩
    accounts := ⟨[("a", .scripted ⟨"a", "", .statements ["INSERT a;", " "], "a", [], [], []⟩)]⟩ }

/-- Of three references two are written, and the third is reported. -/
theorem compile_scripted :
    ∃ c, scripted.compile.result = .ok c ∧ (scripted.sources.filter Source.isLink).length = 2 ∧
      c.diagnostics.map (fun d => (d.relation, d.ownerId, d.missingId))
        = [("permission group", "g", "gone")] ∧
      (scripted.sources.filter Source.isLink).length + c.diagnostics.length
        = scripted.referenceCount := by
  -- The registry holds two entities and one script, so what they emit can be listed.
  have hemits : scripted.Emits := by
    refine ⟨?_, ?_, by simp [scripted, Store.toList, empty, Entry.accountOverrides, Entry.elim]⟩
    · intro kind hkind e he
      cases kind <;> simp [scripted, ofKind, Store.toList, empty, Store.empty] at he hkind
      · subst he
        exact ⟨_, rfl⟩
      · subst he
        exact ⟨_, rfl⟩
    · intro e he
      simp only [scripted, ofKind, Store.toList, List.map_cons, List.map_nil,
        List.mem_singleton] at he
      subst he
      exact ⟨_, rfl⟩
  have hids : ∀ v ∈ scripted.allVisits, v.target.text?.isSome = true := by
    decide
  obtain ⟨c, hc, -, hdiagnostics, -, -, -, hcount⟩ := compile_matches_reference hemits hids
  refine ⟨c, hc, by decide, ?_, hcount⟩
  rw [hdiagnostics]
  decide

end Registry

end AccessGraph
