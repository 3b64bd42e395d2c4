import AccessGraph.Proofs.Compilation.Failures
import AccessGraph.Proofs.Compilation.NaturalKeys
import AccessGraph.Proofs.Compilation.References
import AccessGraph.Proofs.Compilation.StrictValidation
import AccessGraph.Proofs.Registry.Readdressing
import Mathlib.Data.Sum.Basic

/-!
# Complete graphs

A graph is complete if every reference of its groups, roles and accounts leads to a registered
entity.  A complete graph passes strict validation; a compilation of it reports nothing and writes
one link for each reference, in the order of the references
(`Registry.compile_of_isComplete`).  Neither the names of the schemas nor the identifiers of the
accounts matter to completeness.
-/

namespace AccessGraph

namespace Registry

variable {r : Registry}

/-- Every reference of a group, a role or an account is to a registered entity. -/
def IsComplete (r : Registry) : Prop :=
  ∀ v ∈ r.allVisits, r.Registered v.relation.targetKind v.target

instance (r : Registry) : Decidable r.IsComplete :=
  inferInstanceAs (Decidable (∀ v ∈ r.allVisits, r.Registered v.relation.targetKind v.target))

/-! ## Validation and links -/

/-- Whatever is referred to in a complete registry is registered. -/
theorem IsComplete.registered (h : r.IsComplete) {relation : Relation} {v : Visit}
    (hv : v ∈ r.visits relation) : r.Registered v.relation.targetKind v.target :=
  h v (List.mem_flatMap.mpr ⟨relation, Relation.mem_all relation, hv⟩)

/-- A complete registry passes the validation. -/
theorem IsComplete.validate (h : r.IsComplete) : r.validate = .ok () := by
  cases hv : r.validate with
  | ok u => rfl
  | error e =>
    obtain ⟨relation, -, v, hmem, hmissing⟩ := validate_fails_iff.mp ⟨e, hv⟩
    exact absurd (h.registered hmem) hmissing

/-- A complete registry has nothing missing. -/
theorem IsComplete.missing (h : r.IsComplete) (relation : Relation) : r.missing relation = [] := by
  rw [List.eq_nil_iff_forall_not_mem]
  intro v hv
  obtain ⟨hmem, hmissing⟩ := mem_missing.mp hv
  exact hmissing (h.registered hmem)

/-- The compilation of a complete registry has nothing to report. -/
theorem IsComplete.diagnostics (h : r.IsComplete) {c : Compilation}
    (hc : r.compile.result = .ok c) : c.diagnostics = [] := by
  rw [diagnostics_of_compile hc]
  simp [h.missing]

/-- In a complete graph the links of a relation stand in the places of its references. -/
theorem IsComplete.links (h : r.IsComplete) (relation : Relation) :
    (r.visits relation).Forall₂ (fun v s => ∃ target, IsLink r v target ∧ s = .link v target)
      (r.links relation) := by
  have hlinked : ∀ v ∈ r.visits relation, ((v.outcome r).getLeft?).isSome = true := by
    intro v hv
    rw [Sum.isSome_getLeft?_iff_isLeft, isLeft_outcome]
    exact resolves_iff.mpr (h.registered hv)
  refine (forall₂_filterMap hlinked).imp fun v s hs => ?_
  have hmem : s ∈ r.links relation := List.mem_filterMap.mpr ⟨v, hs⟩
  obtain ⟨w, target, rfl, -, hlink⟩ := mem_links hmem
  -- A link is the outcome of the visit that it is made for.
  have hsame : w = v := by
    have hs := hs.2
    unfold Visit.outcome at hs
    split at hs
    · exact (Source.link.inj (Option.some.inj hs)).1.symm
    · simp at hs
  exact ⟨target, hsame ▸ hlink, by rw [hsame]⟩

/-- The sources that are links of a relation. -/
private theorem filter_links (relation : Relation) {p : Source → Bool}
    (hp : ∀ s ∈ r.sources, p s = true ↔ ∃ v target, s = .link v target ∧ v.relation = relation) :
    r.sources.filter p = r.links relation := by
  have hsource : ∀ other, ∀ s ∈ r.links other, s ∈ r.sources := by
    intro other s hs
    have hmem : s ∈ r.sources.filter Source.isLink := by
      rw [filter_isLink_sources]
      exact List.mem_flatMap.mpr ⟨other, Relation.mem_all other, hs⟩
    exact List.mem_of_mem_filter hmem
  -- Links are all that is left, and of these the ones of the other relations drop out.
  have hlink : r.sources.filter p = (Relation.all.flatMap r.links).filter p := by
    rw [← filter_isLink_sources, List.filter_filter]
    refine List.filter_congr fun s hs => ?_
    rw [Bool.eq_iff_iff, Bool.and_eq_true, iff_self_and]
    intro h
    obtain ⟨v, target, rfl, -⟩ := (hp s hs).mp h
    rfl
  have hsame : (r.links relation).filter p = r.links relation := by
    rw [List.filter_eq_self]
    intro s hs
    obtain ⟨v, target, heq, hrelation, -⟩ := mem_links hs
    exact (hp s (hsource relation s hs)).mpr ⟨v, target, heq, hrelation⟩
  have hother : ∀ other ∈ Relation.all, other ≠ relation → (r.links other).filter p = [] := by
    intro other _ hne
    rw [List.filter_eq_nil_iff]
    intro s hs h
    obtain ⟨v, target, rfl, hv, -⟩ := mem_links hs
    obtain ⟨w, _, heq, hw⟩ := (hp _ (hsource other _ hs)).mp h
    rw [(Source.link.inj heq).1] at hv
    exact hne (hv.symm.trans hw)
  rw [hlink, List.filter_flatMap,
    flatMap_eq_of_nodup (g := id) (by decide) (Relation.mem_all relation) hother, hsame]

/-- The statements that insert into the table of a relation are its links. -/
private theorem filter_insertedTable (hr : r.Sound) {c : Compilation}
    (hc : r.compile.result = .ok c)
    (relation : Relation) :
    (c.statements.filter fun s => insertedTable? s = some (r.names.table relation.table))
      = (r.links relation).map (Source.text r.names) := by
  have he := emits_of_compile hr hc
  rw [statements_eq hr hc, List.filter_map, filter_links relation fun s hs => ?_]
  rw [Function.comp_apply, decide_eq_true_iff]
  exact inserts_relation_iff hr he hs relation

/-- A complete graph whose fields can be written compiles without a diagnostic, and what it inserts
into the table of a relation are the links of the references, one for each. -/
theorem compile_of_isComplete (hr : r.Sound) (h : r.IsComplete)
    (hfields : firstFault? r.fallible = none) :
    ∃ c, r.compile.result = .ok c ∧ c.diagnostics = [] ∧
      ∀ relation, (r.visits relation).Forall₂
        (fun v s => ∃ target, IsLink r v target ∧ s = v.statement r.names target)
        (c.statements.filter fun s => insertedTable? s = some (r.names.table relation.table)) := by
  -- Without a fault among the values the compilation cannot fail.
  have hcompile := failure?_compile hr
  rw [hfields] at hcompile
  cases hc : r.compile.result with
  | error e => simp [hc, failure?] at hcompile
  | ok c =>
    refine ⟨c, rfl, h.diagnostics hc, fun relation => ?_⟩
    rw [filter_insertedTable hr hc, List.forall₂_map_right_iff]
    refine (h.links relation).imp fun v s hs => ?_
    obtain ⟨target, hlink, rfl⟩ := hs
    exact ⟨target, hlink, rfl⟩

/-! ## Other names and other accounts -/

/-- Completeness does not depend on the schema names. -/
theorem isComplete_withNames (names : Names) (h : r.IsComplete) : (r.withNames names).IsComplete :=
  h

/-- The values that may have no literal do not depend on the schema names. -/
theorem fallible_withNames (r : Registry) (names : Names) :
    (r.withNames names).fallible = r.fallible := rfl

/-- Completeness survives a change of account identifiers, as no reference is to an account. -/
theorem isComplete_readdress (σ : String → String) (h : r.IsComplete) :
    (r.readdress σ).IsComplete := by
  intro v hv
  obtain ⟨relation, -, hv⟩ := List.mem_flatMap.mp hv
  obtain ⟨e, he, hv⟩ := List.mem_flatMap.mp hv
  obtain ⟨target, htarget, rfl⟩ := List.mem_map.mp hv
  rw [ofKind_readdress] at he
  obtain ⟨e, hmem, rfl⟩ := List.mem_map.mp he
  have htargets : (e.readdress σ).targets relation = e.targets relation := by
    rcases e with e | e | e | e | e <;> cases e <;> cases relation <;> rfl
  have hvisit : ⟨relation, e, target⟩ ∈ r.visits relation :=
    List.mem_flatMap.mpr ⟨e, hmem, List.mem_map_of_mem (htargets ▸ htarget)⟩
  obtain ⟨id, hid, hhas⟩ := h.registered hvisit
  -- No reference is to an account.
  refine ⟨id, hid, ?_⟩
  cases relation with
  | groupPermission => exact hhas
  | rolePermission => exact hhas
  | roleGroup => exact hhas
  | accountRole => exact hhas

/-- Account identifiers are not among the values that may have no literal. -/
theorem fallible_readdress (r : Registry) (σ : String → String) :
    (r.readdress σ).fallible = r.fallible := by
  have haccounts : ∀ {α : Type} (fields : Entry Account → List α),
      (∀ a : Entry Account, fields (a.map (Account.readdress σ)) = fields a) →
      (r.readdress σ).accounts.toList.flatMap fields = r.accounts.toList.flatMap fields := by
    intro α fields hfields
    simp only [readdress, Store.toList, List.map_map, List.flatMap_map, Function.comp_apply,
      hfields]
  -- Of an account its metadata and its overrides are written so, and neither tells who it is.
  refine List.flatMap_congr fun p _ => ?_
  cases p with
  | accounts => exact haccounts _ fun a => by cases a <;> rfl
  | overrides => exact haccounts _ fun a => by cases a <;> rfl
  | _ => rfl

end Registry

end AccessGraph
