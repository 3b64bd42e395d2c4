import AccessGraph.Proofs.Preset.Roots
import AccessGraph.Proofs.Registry.Appending

/-!
# Ready-made graphs in registries that are in use

A ready-made graph can be built in any registry that admits its entities
(`Preset.build_appends`).  What is registered there already stays as it is, with all its references,
and the entities of the graph come behind it: all of them if the graph is built, and the first of
each kind if one is refused.
-/

namespace AccessGraph

section Outcome

variable {α β : Type} {x : α × Option β}

private theorem exists_of_isNone (h : x.2.isNone = true) : ∃ a, x = (a, none) :=
  ⟨x.1, Prod.ext rfl (Option.isNone_iff_eq_none.mp h)⟩

private theorem exists_of_isSome (h : x.2.isSome = true) : ∃ a b, x = (a, some b) := by
  obtain ⟨b, hb⟩ := Option.isSome_iff_exists.mp h
  exact ⟨x.1, b, Prod.ext rfl hb⟩

end Outcome

namespace Preset

variable (p : Preset) (root : Option String)

/-- On a fresh registry a graph is built unless its root account is one of its samples. -/
private theorem run_plan_eq_none_iff (names : Names) :
    ((Registry.empty names).run (p.plan root)).2 = none ↔ ∀ id ∈ p.samples, root ≠ some id := by
  constructor
  · rintro h id hid rfl
    rw [run_plan_of_sample p hid names] at h
    simp at h
  · intro h
    obtain ⟨t, ht, -⟩ := p.exists_trial
    rw [p.run_plan (not_mem_samples h) names ht]

/-- On a fresh registry nothing goes wrong but that an account is there twice. -/
private theorem isDuplicate_of_run_plan (names : Names) {e : Error}
    (h : ((Registry.empty names).run (p.plan root)).2 = some e) : e.isDuplicate = true := by
  have hsample : ¬ ∀ id ∈ p.samples, root ≠ some id := by
    rw [← run_plan_eq_none_iff p root names, h]
    simp
  simp only [ne_eq, not_forall, not_not] at hsample
  obtain ⟨id, hid, rfl⟩ := hsample
  rw [run_plan_of_sample p hid names] at h
  obtain rfl := Option.some.inj h
  rfl

/-- A graph is built in a registry just as in a fresh one, or an entity of it is refused; then the
commands before have done what they do in a fresh one. -/
theorem buildInto_cases (names : Names) (r : Registry) :
    (∃ fresh, p.buildInto root (Registry.empty names) = (fresh, none) ∧
      p.buildInto root r = (r ++ fresh, none) ∧ ∀ x ∈ registered (p.plan root), r.Admits x) ∨
    ∃ before after u e, p.plan root = before ++ after ∧
      (Registry.empty names).run before = (u, none) ∧ p.buildInto root r = (r ++ u, some e) ∧
      (∃ x ∈ registered (p.plan root), (r ++ u).Refuses x e) ∧
      ((p.buildInto root (Registry.empty names)).2 ≠ none ∨
        ∃ x ∈ registered (p.plan root), ¬ r.Admits x) := by
  -- An empty registry has nothing in common with any other.
  have hapart : r.Apart (Registry.empty names) := by
    intro kind id hid
    rw [Registry.keys_empty] at hid
    exact absurd hid List.not_mem_nil
  -- The plan fails on nothing but what is taken, even where it fails by itself.
  have hcases := Registry.run_behind hapart fun e => p.isDuplicate_of_run_plan root names
  rwa [Registry.append_empty] at hcases

/-- Whatever a registry holds, a ready-made graph is built in it just when every entity of the graph
finds its identifier free, and its name if entities of its kind are found by their names, and no
sample account is given as the root account.  Then each kind has the old entities, followed by those
of the graph the way they are built in a fresh registry.  Otherwise the error tells the identifier
or the name of an entity that is refused, and each kind has the old entities, followed by the first
ones of the graph, which may still miss references. -/
theorem build_appends (r : Registry) :
    ((∃ t, p.buildInto root r = (t, none)) ↔
      (∀ id ∈ p.samples, root ≠ some id) ∧ ∀ x ∈ registered (p.plan root), r.Admits x) ∧
    (∀ t, p.buildInto root r = (t, none) → t.names = r.names ∧
      ∀ names, ∃ fresh, p.buildInto root (Registry.empty names) = (fresh, none) ∧
        ∀ kind, fresh.registrations kind = produced (p.plan root) kind ∧
          t.registrations kind = r.registrations kind ++ fresh.registrations kind) ∧
    ∀ t e, p.buildInto root r = (t, some e) → t.names = r.names ∧
      (∃ x ∈ registered (p.plan root), t.Refuses x e) ∧
      ∀ kind, ∃ new first, t.registrations kind = r.registrations kind ++ new ∧
        first <+: produced (p.plan root) kind ∧ new.Forall₂ Registration.Kept first := by
  refine ⟨⟨?_, ?_⟩, ?_, ?_⟩
  · -- The plan that runs behind the registry runs by itself as well.
    rintro ⟨t, ht⟩
    rcases p.buildInto_cases root r.names r with
      ⟨fresh, hfresh, -, hadmits⟩ | ⟨_, _, u, e, -, -, he, -⟩
    · exact ⟨(p.run_plan_eq_none_iff root r.names).mp (congrArg Prod.snd hfresh), hadmits⟩
    · rw [ht] at he
      simp at he
  · -- If it does not run behind the registry, one of the two reasons holds.
    rintro ⟨hroot, hadmits⟩
    rcases p.buildInto_cases root r.names r with ⟨fresh, -, h, -⟩ | ⟨_, _, _, _, -, -, -, -, hwhy⟩
    · exact ⟨_, h⟩
    · rcases hwhy with hfails | ⟨x, hx, hnot⟩
      · exact absurd ((p.run_plan_eq_none_iff root r.names).mpr hroot) hfails
      · exact absurd (hadmits x hx) hnot
  · intro t ht
    -- What is built by itself does not depend on the schema names, so they are left open.
    have hbuilt : ∀ names, ∃ fresh, p.buildInto root (Registry.empty names) = (fresh, none) ∧
        t = r ++ fresh := by
      intro names
      rcases p.buildInto_cases root names r with ⟨fresh, hfresh, h, -⟩ | ⟨_, _, u, e, -, -, he, -⟩
      · exact ⟨fresh, hfresh, congrArg Prod.fst (ht.symm.trans h)⟩
      · rw [ht] at he
        simp at he
    refine ⟨?_, fun names => ?_⟩
    · obtain ⟨fresh, -, rfl⟩ := hbuilt r.names
      exact Registry.names_append r fresh
    · obtain ⟨fresh, hfresh, rfl⟩ := hbuilt names
      exact ⟨fresh, hfresh, fun kind => ⟨Registry.registrations_of_run hfresh kind,
        Registry.registrations_append r fresh kind⟩⟩
  · intro t e ht
    rcases p.buildInto_cases root r.names r with
      ⟨fresh, -, h, -⟩ | ⟨before, after, u, e', hplan, hbefore, h, hrefuses, -⟩
    · rw [ht] at h
      simp at h
    · rw [ht] at h
      obtain ⟨rfl, he⟩ := Prod.mk.inj h
      obtain rfl := Option.some.inj he
      -- The commands before the refused one did what they do by themselves, some additions short.
      refine ⟨Registry.names_append r u, hrefuses, fun kind => ?_⟩
      obtain ⟨first, hfirst, hkept⟩ :=
        Registry.registrations_of_run_before hbefore after kind
      exact ⟨u.registrations kind, first, Registry.registrations_append r u kind, hplan ▸ hfirst,
        hkept⟩

/-- A registry with a role that bears the name of one of the roles to start from. -/
def crowded : Registry :=
  ((Registry.empty ⟨"access", "auth"⟩).run
    [.define (.role "clerk" (.ofTable [("name", .text "Member")])),
      .link (.rolePermission "clerk" (.text "p"))]).1

/-- A preset is appended to a registry that others have filled, and another one is refused there
halfway. -/
theorem build_appends_sample :
    (∃ t fresh, solo.buildInto none crowded = (t, none) ∧
      solo.buildInto none (Registry.empty ⟨"access", "auth"⟩) = (fresh, none) ∧
      t.registrations .role = crowded.registrations .role ++ fresh.registrations .role) ∧
    ∃ t e new first, starter.buildInto none crowded = (t, some e) ∧
      (∃ x ∈ registered (starter.plan none), t.Refuses x e) ∧
      t.registrations .role = crowded.registrations .role ++ new ∧
      first <+: produced (starter.plan none) .role ∧ new.Forall₂ Registration.Kept first := by
  -- Whether either preset is built is computed, and the rest follows from the theorem.
  obtain ⟨t, ht⟩ : ∃ t, solo.buildInto none crowded = (t, none) :=
    exists_of_isNone (by decide +kernel)
  obtain ⟨u, e, hu⟩ : ∃ u e, starter.buildInto none crowded = (u, some e) :=
    exists_of_isSome (by decide +kernel)
  obtain ⟨-, hbuilt, -⟩ := build_appends solo none crowded
  obtain ⟨-, -, hrefused⟩ := build_appends starter none crowded
  obtain ⟨-, hfresh⟩ := hbuilt t ht
  obtain ⟨fresh, hrun, hkinds⟩ := hfresh ⟨"access", "auth"⟩
  obtain ⟨-, hrefuses, hfirst⟩ := hrefused u e hu
  obtain ⟨new, first, hnew, hprefix, hkept⟩ := hfirst .role
  exact ⟨⟨t, fresh, ht, hrun, (hkinds .role).2⟩, u, e, new, first, hu, hrefuses, hnew, hprefix,
    hkept⟩

end Preset

end AccessGraph
