import AccessGraph.Preset.Basic
import AccessGraph.Proofs.Compilation.Complete
import Mathlib.Logic.Equiv.Basic

/-!
# Root accounts of ready-made graphs

The root account of a ready-made graph may bear any identifier that no sample account of the graph
bears.  The plan for one root account is the plan for another with the identifier exchanged
(`Preset.readdresses_plan`), so what is checked of a graph with its own root account
(`Preset.check_trial`) carries over to every other one (`Preset.holds_for_every_root`).
-/

namespace AccessGraph

/-! ## What a root account is -/

namespace Registry

variable {r : Registry}

/-- The account of an identifier bears just the given role, which has rank 100, and every other
role ranks lower. -/
structure IsRoot (r : Registry) (id role : String) : Prop where
  account : ∃ a, r.account id = .ok (.configured a) ∧ a.roles = [.text role]
  rank : ∃ o, r.role role = .ok (.configured o) ∧ o.config.rank = 100
  highest : ∀ e ∈ r.roles.toList, e.roleId.text ≠ role →
    ∃ o, e = .configured o ∧ o.config.rank < 100

/-- Whether a list of references holds one text and nothing else. -/
def isSingleText (s : String) : List Value → Bool
  | [.text t] => t == s
  | _ => false

/-- Whether an account is a root account. -/
def checkRoot (r : Registry) (id role : String) : Bool :=
  (r.accounts.get? id).any (Entry.elim (fun a => isSingleText role a.roles) fun _ => false)
    && (r.roles.get? role).any (Entry.elim (fun o => o.config.rank == 100) fun _ => false)
    && r.roles.toList.all fun e =>
      e.roleId.text == role || e.elim (fun o => o.config.rank < 100) fun _ => false

/-- The test for a single text, as an equation. -/
private theorem eq_of_isSingleText {s : String} {vs : List Value} (h : isSingleText s vs = true) :
    vs = [.text s] := by
  unfold isSingleText at h
  split at h
  · next t => rw [beq_iff_eq.mp h]
  · simp at h

/-- The test for a root with a role, as a property. -/
private theorem isRoot_of_checkRoot {id role : String} (h : r.checkRoot id role = true) :
    r.IsRoot id role := by
  rw [checkRoot, Bool.and_eq_true, Bool.and_eq_true, Option.any_eq_true, Option.any_eq_true,
    List.all_eq_true] at h
  obtain ⟨⟨⟨e, he, hroles⟩, f, hf, hrank⟩, hhighest⟩ := h
  refine ⟨?_, ?_, fun e he hne => ?_⟩
  · -- The account of the root is configured, with a single role.
    cases e with
    | scripted s => simp [Entry.elim] at hroles
    | configured a =>
      refine ⟨a, ?_, eq_of_isSingleText hroles⟩
      rw [account, find, Identifier.text, he]
  · -- The role of the root is configured, with the highest rank.
    cases f with
    | scripted s => simp [Entry.elim] at hrank
    | configured o =>
      refine ⟨o, ?_, beq_iff_eq.mp hrank⟩
      rw [Registry.role, find, Identifier.text, hf]
  · -- Every other role is configured, with a lower rank.
    have hlower := hhighest e he
    rw [Bool.or_eq_true, beq_iff_eq, or_iff_right hne] at hlower
    cases e with
    | scripted s => simp [Entry.elim] at hlower
    | configured o => exact ⟨o, rfl, of_decide_eq_true hlower⟩

/-- Who is the root does not depend on the schema names. -/
private theorem IsRoot.withNames {id role : String} (h : r.IsRoot id role) (names : Names) :
    (r.withNames names).IsRoot id role :=
  ⟨h.account, h.rank, h.highest⟩

/-- The root is still the root under its new identifier. -/
private theorem IsRoot.readdress {σ : String → String} (hσ : Function.Injective σ)
    {id role : String}
    (h : r.IsRoot id role) : (r.readdress σ).IsRoot (σ id) role := by
  obtain ⟨a, ha, hroles⟩ := h.account
  exact ⟨⟨a.readdress σ, account_readdress hσ ha, hroles⟩, h.rank, h.highest⟩

end Registry

namespace Preset

variable {σ : String → String}

/-! ## Plans for other root accounts -/

/-- Permissions are defined without naming an account. -/
theorem readdresses_rights (system : List SystemRight) (data : List DataRight) :
    (rights system data).Forall₂ (Command.Readdresses σ) (rights system data) := by
  rw [List.forall₂_same]
  intro c hc
  rcases List.mem_append.mp hc with hc | hc
  · obtain ⟨s, -, rfl⟩ := List.mem_map.mp hc
    exact .define nofun
  · obtain ⟨d, -, rfl⟩ := List.mem_map.mp hc
    exact .define nofun

/-- A group is defined and filled without naming an account. -/
theorem readdresses_group (g : GroupPlan) :
    g.commands.Forall₂ (Command.Readdresses σ) g.commands := by
  rw [List.forall₂_same]
  intro c hc
  rcases List.mem_cons.mp hc with rfl | hc
  · exact .define nofun
  · obtain ⟨p, -, rfl⟩ := List.mem_map.mp hc
    exact .link nofun

/-- A role is defined without naming an account. -/
theorem readdresses_role (o : RolePlan) : o.command.Readdresses σ o.command := .define nofun

private theorem readdresses_roles (roles : List RolePlan) :
    (roles.map RolePlan.command).Forall₂ (Command.Readdresses σ) (roles.map RolePlan.command) := by
  rw [List.forall₂_same]
  intro c hc
  obtain ⟨o, -, rfl⟩ := List.mem_map.mp hc
  exact readdresses_role o

/-- A group is attached to a role without naming an account. -/
theorem readdresses_attach (role group : String) :
    (attach role group).Readdresses σ (attach role group) := .link nofun

private theorem readdresses_optionalMfa : optionalMfa.Readdresses σ optionalMfa := .define nofun

private theorem readdresses_groups (groups : List GroupPlan) :
    (groups.flatMap GroupPlan.commands).Forall₂ (Command.Readdresses σ)
      (groups.flatMap GroupPlan.commands) :=
  forall₂_flatMap groups readdresses_group

/-- The plan for one person names its root and no other account. -/
theorem readdresses_solo (root : String) :
    (Solo.plan root).Forall₂ (Command.Readdresses σ) (Solo.plan (σ root)) :=
  List.rel_append (List.rel_append (readdresses_rights _ _) (readdresses_group _))
    (.cons (readdresses_role _) (.cons (readdresses_attach _ _) (.cons (.account root _)
      (.cons (.accountRole root _) (.cons readdresses_optionalMfa .nil)))))

/-- The plan for a small team names its root and no other account. -/
theorem readdresses_smallTeam (root : String) :
    (SmallTeam.plan root).Forall₂ (Command.Readdresses σ) (SmallTeam.plan (σ root)) := by
  have hteam : ∀ team : GroupPlan × RolePlan, (SmallTeam.teamCommands team).Forall₂
      (Command.Readdresses σ) (SmallTeam.teamCommands team) := fun team =>
    List.rel_append (readdresses_group team.1)
      (.cons (readdresses_role team.2) (.cons (readdresses_attach _ _) .nil))
  exact List.rel_append
    (List.rel_append (readdresses_rights _ _) (forall₂_flatMap SmallTeam.teams hteam))
    (.cons (.account root _) (.cons (.accountRole root _) (.cons readdresses_optionalMfa .nil)))

/-- The plan for a service names its root and no other account. -/
theorem readdresses_saas (root : String) :
    (Saas.plan root).Forall₂ (Command.Readdresses σ) (Saas.plan (σ root)) := by
  have hrole : ∀ role : RolePlan × String, (Saas.roleCommands role).Forall₂
      (Command.Readdresses σ) (Saas.roleCommands role) := fun role =>
    .cons (readdresses_role role.1) (.cons (readdresses_attach _ _) .nil)
  exact List.rel_append
    (List.rel_append (List.rel_append (readdresses_rights _ _) (readdresses_groups _))
      (forall₂_flatMap Saas.roles hrole))
    (.cons (.account root _) (.cons (.accountRole root _) (.cons readdresses_optionalMfa .nil)))

/-- The accounts of a graph beside its root account. -/
def samples : Preset → List String
  | .starter => [Starter.sampleAdmin, Starter.sampleMember, Starter.sampleReader]
  | _ => []

/-- A sample account stays itself where its identifier does. -/
theorem readdresses_sample {id : String} (hid : σ id = id) (name email : String) :
    (Starter.sampleAccount id name email).command.Readdresses σ
      (Starter.sampleAccount id name email).command := by
  have h : (Starter.sampleAccount id name email).command.Readdresses σ
      (Starter.sampleAccount (σ id) name email).command := .account id _
  rwa [hid] at h

/-- A role is assigned alike to an account that keeps its identifier. -/
private theorem readdresses_assign {id : String} (hid : σ id = id) (role : String) :
    (assign id role).Readdresses σ (assign id role) := by
  have h : (assign id role).Readdresses σ (assign (σ id) role) := .accountRole id (.text role)
  rwa [hid] at h

/-- The plan of the starter names its root and the sample accounts. -/
theorem readdresses_starter (root : String) (hsamples : ∀ id ∈ samples .starter, σ id = id) :
    (Starter.plan root).Forall₂ (Command.Readdresses σ) (Starter.plan (σ root)) := by
  -- The sample accounts keep their identifiers.
  have hadmin : σ Starter.sampleAdmin = Starter.sampleAdmin := hsamples _ (by decide)
  have hmember : σ Starter.sampleMember = Starter.sampleMember := hsamples _ (by decide)
  have hreader : σ Starter.sampleReader = Starter.sampleReader := hsamples _ (by decide)
  have haccounts : ((Starter.accounts root).map AccountPlan.command).Forall₂
      (Command.Readdresses σ) ((Starter.accounts (σ root)).map AccountPlan.command) :=
    .cons (.account root _) (.cons (readdresses_sample hadmin _ _)
      (.cons (readdresses_sample hmember _ _) (.cons (readdresses_sample hreader _ _) .nil)))
  have hattachments :
      Starter.attachments.Forall₂ (Command.Readdresses σ) Starter.attachments :=
    .cons (readdresses_attach _ _) (.cons (readdresses_attach _ _)
      (.cons (readdresses_attach _ _) (.cons (readdresses_attach _ _) .nil)))
  have hassignments : (Starter.assignments root).Forall₂ (Command.Readdresses σ)
      (Starter.assignments (σ root)) :=
    .cons (.accountRole root _) (.cons (readdresses_assign hadmin _)
      (.cons (readdresses_assign hmember _) (.cons (readdresses_assign hreader _) .nil)))
  -- The plan is these six lists end to end, and only two of them name accounts.
  exact List.rel_append (List.rel_append (List.rel_append (List.rel_append (List.rel_append
    haccounts (readdresses_roles _)) (readdresses_rights _ _)) (readdresses_groups _))
    hattachments) hassignments

/-- The plan for a root account is the plan for the default one with another identifier. -/
theorem readdresses_plan (p : Preset) {given : Option String}
    (hroot : σ p.defaultRoot = orDefault p.defaultRoot given)
    (hsamples : ∀ id ∈ p.samples, σ id = id) :
    (p.plan none).Forall₂ (Command.Readdresses σ) (p.plan given) := by
  simp only [plan, ← hroot]
  cases p with
  | solo => exact readdresses_solo rootAccount
  | smallTeam => exact readdresses_smallTeam rootAccount
  | starter => exact readdresses_starter Starter.sampleRoot hsamples
  | saas => exact readdresses_saas rootAccount

/-! ## Graphs with their own root accounts -/

/-- The role of the root account. -/
def rootRole : Preset → String
  | .solo => "solopreneur_role"
  | .smallTeam => "global_admin_role"
  | .starter => "root_role"
  | .saas => "root_role"

/-- A run of the plan for the own root account. -/
def trial (p : Preset) : Registry × Option Error :=
  (Registry.empty ⟨"access", "auth"⟩).run (p.plan none)

/-- Whether a run has led to a complete graph that can be written and has the root account and role
of a ready-made graph. -/
def check (p : Preset) (outcome : Registry × Option Error) : Bool :=
  outcome.2.isNone && decide outcome.1.IsComplete && (firstFault? outcome.1.fallible).isNone
    && outcome.1.checkRoot p.defaultRoot p.rootRole

/-- Each preset passes the check with its trial root. -/
theorem check_trial (p : Preset) : p.check p.trial = true := by cases p <;> decide +kernel

/-- What the plan for the own root account leads to. -/
theorem exists_trial (p : Preset) :
    ∃ t, p.trial = (t, none) ∧ t.IsComplete ∧ firstFault? t.fallible = none ∧
      t.IsRoot p.defaultRoot p.rootRole := by
  have hcheck := p.check_trial
  simp only [check, Bool.and_eq_true, decide_eq_true_eq, Option.isNone_iff_eq_none] at hcheck
  obtain ⟨⟨⟨herror, hcomplete⟩, hfields⟩, hroot⟩ := hcheck
  exact ⟨p.trial.1, Prod.ext rfl herror, hcomplete, hfields, Registry.isRoot_of_checkRoot hroot⟩

/-! ## Graphs with other root accounts -/

/-- A text that may be left out is not empty if its default is not: an empty one counts as left
out. -/
private theorem orDefault_ne_empty {default : String} (h : default ≠ "") (given : Option String) :
    orDefault default given ≠ "" := by
  cases given with
  | none => exact h
  | some s =>
    rw [orDefault]
    split
    · exact h
    · next hs => exact fun heq => hs (String.isEmpty_iff.mpr heq)

/-- No preset has an empty identifier as its default root. -/
private theorem defaultRoot_ne_empty (p : Preset) : p.defaultRoot ≠ "" := by cases p <;> decide

/-- No preset has a sample account as its default root. -/
private theorem defaultRoot_not_mem_samples (p : Preset) : p.defaultRoot ∉ p.samples := by
  cases p <;> decide

/-- A root account that is not given as a sample is none. -/
theorem not_mem_samples {p : Preset} {root : Option String}
    (h : ∀ id ∈ p.samples, root ≠ some id) : orDefault p.defaultRoot root ∉ p.samples := by
  cases root with
  | none => exact p.defaultRoot_not_mem_samples
  | some id =>
    rw [orDefault]
    split
    · exact p.defaultRoot_not_mem_samples
    · exact fun hmem => h id hmem rfl

section

variable (p : Preset) {root : Option String} (hfresh : orDefault p.defaultRoot root ∉ p.samples)

include hfresh

/-- The plan for a root account that is no sample exchanges two identifiers. -/
private theorem readdresses_swap :
    (p.plan none).Forall₂
      (Command.Readdresses (Equiv.swap p.defaultRoot (orDefault p.defaultRoot root)))
      (p.plan root) := by
  refine p.readdresses_plan (Equiv.swap_apply_left _ _) fun id hid => ?_
  refine Equiv.swap_apply_of_ne_of_ne ?_ ?_
  · rintro rfl
    exact p.defaultRoot_not_mem_samples hid
  · rintro rfl
    exact hfresh hid

/-- No plan registers something scripted. -/
theorem script_not_mem_plan (kind : Kind) (id : Identifier) (s : Scripted) :
    Command.script kind id s ∉ p.plan root := by
  intro hmem
  obtain ⟨c, -, hc⟩ := exists_of_forall₂ (List.Forall₂.flip (p.readdresses_swap hfresh)) hmem
  cases hc

/-- The plan for a root account that is no sample leads to the graph with the own root account, but
for its identifier. -/
theorem run_plan (names : Names) {t : Registry} (ht : p.trial = (t, none)) :
    (Registry.empty names).run (p.plan root)
      = ((t.readdress (Equiv.swap p.defaultRoot (orDefault p.defaultRoot root))).withNames names,
        none) := by
  have hempty : Equiv.swap p.defaultRoot (orDefault p.defaultRoot root) "" = "" :=
    Equiv.swap_apply_of_ne_of_ne p.defaultRoot_ne_empty.symm
      (orDefault_ne_empty p.defaultRoot_ne_empty root).symm
  have hrun := Registry.run_readdress (Equiv.injective _) hempty (p.readdresses_swap hfresh) ht
  exact (Registry.run_withNames _ names _).trans (by rw [hrun])

end

/-- A sample account cannot be the root account as well. -/
theorem run_plan_of_sample (p : Preset) {id : String} (h : id ∈ p.samples) (names : Names) :
    ((Registry.empty names).run (p.plan (some id))).2 = some (.duplicateId .account id) := by
  cases p with
  | starter =>
    have hid : id = Starter.sampleAdmin ∨ id = Starter.sampleMember ∨
        id = Starter.sampleReader := by
      simpa [samples] using h
    -- Each run stops at the second registration of the account.
    rcases hid with rfl | rfl | rfl
    · rfl
    · rfl
    · rfl
  | _ => exact absurd h List.not_mem_nil

/-! ## Building by name -/

/-- A registry of accepted schema names is created empty. -/
theorem create_eq {names : Names} (hschema : isSchemaName names.schema = true)
    (hauth : isSchemaName names.authSchema = true) :
    Registry.create names none none = .ok (Registry.empty names) :=
  Registry.create_eq_ok.mpr ⟨hschema, hauth, rfl⟩

/-- Under valid names of the schemas, building by name is running the plan. -/
theorem buildNamed_eq (p : Preset) (root : Option String) {names : Names}
    (hschema : isSchemaName names.schema = true) (hauth : isSchemaName names.authSchema = true) :
    buildNamed p.name root names
      = ((Registry.empty names).run (p.plan root)).2.elim
          (.ok ((Registry.empty names).run (p.plan root)).1) .error := by
  have hname : ofName p.name = .ok p := by rw [ofName, ofName?_name]
  simp only [buildNamed, build, buildInto, hname, create_eq hschema hauth, bind, Except.bind]
  rcases (Registry.empty names).run (p.plan root) with ⟨r, _ | e⟩ <;> rfl

/-- A ready-made graph can be built under any valid names of the schemas and with any root account
that is not given as one of its sample accounts; with one of these it fails, as the account is
registered already.  What is built has the root account given, or the own one of the graph in the
place of an absent or empty one, with the one role of the highest rank.  It passes strict
validation and compiles without a diagnostic, and what is inserted into the table of a relation are
the links of the references, one for each. -/
theorem holds_for_every_root (p : Preset) (root : Option String) (names : Names)
    (hschema : isSchemaName names.schema = true) (hauth : isSchemaName names.authSchema = true) :
    (∀ id ∈ p.samples, root = some id →
      buildNamed p.name root names = .error (.duplicateId .account id)) ∧
    ((∀ id ∈ p.samples, root ≠ some id) →
      ∃ r, buildNamed p.name root names = .ok r ∧ r.names = names ∧
        r.IsRoot (orDefault p.defaultRoot root) p.rootRole ∧ r.validate = .ok () ∧
        ∃ c, r.compile.result = .ok c ∧ c.diagnostics = [] ∧
          ∀ relation, (r.visits relation).Forall₂
            (fun v s => ∃ target, IsLink r v target ∧ s = v.statement r.names target)
            (c.statements.filter fun s =>
              insertedTable? s = some (r.names.table relation.table))) := by
  constructor
  · rintro id hid rfl
    rw [buildNamed_eq p _ hschema hauth, run_plan_of_sample p hid names]
    rfl
  · intro hroot
    have hfresh := not_mem_samples hroot
    obtain ⟨t, ht, hcomplete, hfields, hisRoot⟩ := p.exists_trial
    have hrun := p.run_plan hfresh names ht
    -- What is built is the trial, with the two identifiers exchanged, under the names given.
    set σ := Equiv.swap p.defaultRoot (orDefault p.defaultRoot root) with hσ
    have hbuilt : Registry.Built ((t.readdress σ).withNames names) := by
      have h := (Registry.Built.create (create_eq hschema hauth)).run (p.script_not_mem_plan hfresh)
      rwa [hrun] at h
    have hcomplete' : ((t.readdress σ).withNames names).IsComplete :=
      Registry.isComplete_withNames names (Registry.isComplete_readdress σ hcomplete)
    refine ⟨(t.readdress σ).withNames names, ?_, rfl, ?_, hcomplete'.validate, ?_⟩
    · rw [buildNamed_eq p root hschema hauth, hrun]
      rfl
    · have h := (hisRoot.readdress (Equiv.injective σ)).withNames names
      rwa [hσ, Equiv.swap_apply_left] at h
    · refine Registry.compile_of_isComplete hbuilt.sound hcomplete' ?_
      rw [Registry.fallible_withNames, Registry.fallible_readdress, hfields]

/-- The starter is built for a root of its own, and refused for one that is a sample account. -/
theorem holds_for_every_root_sample :
    isSchemaName "access" = true ∧ isSchemaName "auth" = true ∧
      (∃ r, buildNamed "starter" (some "someone") ⟨"access", "auth"⟩ = .ok r ∧
        r.IsRoot "someone" "root_role" ∧ r.validate = .ok () ∧
        ∃ c, r.compile.result = .ok c ∧ c.diagnostics = []) ∧
      buildNamed "starter" (some Starter.sampleMember) ⟨"access", "auth"⟩
        = .error (.duplicateId .account Starter.sampleMember) := by
  -- The root of the one is no sample account, and that of the other is one.
  have hfresh : ∀ id ∈ samples .starter, some "someone" ≠ some id := by decide
  obtain ⟨-, hbuilds⟩ :=
    holds_for_every_root .starter (some "someone") ⟨"access", "auth"⟩ (by decide) (by decide)
  obtain ⟨r, hr, -, hroot, hvalid, c, hc, hnone, -⟩ := hbuilds hfresh
  obtain ⟨hfails, -⟩ := holds_for_every_root .starter (some Starter.sampleMember)
    ⟨"access", "auth"⟩ (by decide) (by decide)
  exact ⟨by decide, by decide, ⟨r, hr, hroot, hvalid, c, hc, hnone⟩,
    hfails _ (by decide) rfl⟩

end Preset

end AccessGraph
