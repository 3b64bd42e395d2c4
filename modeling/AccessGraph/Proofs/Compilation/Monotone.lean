import AccessGraph.Proofs.Compilation.StrictValidation
import AccessGraph.Proofs.Compilation.Tasks
import AccessGraph.Proofs.Registry.Effects

/-!
# Compilation of a growing registry

When a registry grows, the tasks of its compilation are a sublist of the later tasks, each at its
later time (`Registry.Grows.tasks`).  A task that is done later leaves the statement that it left
before; only a reference that was skipped can become a link.

So nothing that was written is removed, changed or moved by anything that is attempted later, and
what was skipped is either still skipped or written as a link (`Registry.compile_monotone`).
-/

namespace AccessGraph

open List (SublistForall₂)

/-! ## Tasks at a later time -/

namespace Entity.Later

variable {e f : Entity}

/-- Additions to the lists of an entity do not show in the statements for it. -/
theorem emit_eq (h : e.Later f) (names : Names) : f.emit names = e.emit names := by
  cases h <;> rfl

theorem lookup?_eq (h : e.Later f) (names : Names) : f.lookup? names = e.lookup? names := by
  cases h <;> rfl

private theorem split_eq (h : e.Later f) : f.split = e.split := by cases h <;> rfl

/-- An owner goes on to hold the references that it holds. -/
private theorem targets_append (h : e.Later f) (relation : Relation) :
    ∃ more, f.targets relation = e.targets relation ++ more := by
  -- Only the list that was added to goes on, and only one relation reads it.
  cases h with
  | refl => exact ⟨[], (List.append_nil _).symm⟩
  | group g ps =>
    cases relation with
    | groupPermission => exact ⟨ps, rfl⟩
    | _ => exact ⟨[], rfl⟩
  | role o ps as =>
    cases relation with
    | rolePermission => exact ⟨ps, rfl⟩
    | roleGroup =>
      refine ⟨as.map fun a => .text a.groupId, ?_⟩
      simp [targets, Entry.roleGroups, Entry.elim, Role.groups]
    | _ => exact ⟨[], rfl⟩
  | account a rs os =>
    cases relation with
    | accountRole => exact ⟨rs, rfl⟩
    | _ => exact ⟨[], rfl⟩

end Entity.Later

/-- The second visit is the first at a later time. -/
structure Visit.Later (v w : Visit) : Prop where
  relation : w.relation = v.relation
  owner : v.owner.Later w.owner
  target : w.target = v.target

/-- The second task is the first at a later time. -/
inductive Task.Later : Task → Task → Prop
  | marker (p : Phase) : Later (.marker p) (.marker p)
  | row {e f : Entity} : e.Later f → Later (.row e) (.row f)
  | reference {v w : Visit} : v.Later w → Later (.reference v) (.reference w)
  | override {a b : Entry Account} (o : Override) : (Entity.account a).Later (.account b) →
    Later (.override a o) (.override b o)

/-- A visit at a later time is of the same reference. -/
private theorem Visit.Later.reference_eq {v w : Visit} (h : v.Later w) :
    w.reference = v.reference := by
  rw [Visit.reference, Visit.reference, h.relation, h.owner.identifier_eq, h.target]

namespace Registry

variable {r t : Registry} {new : List Registration}

/-- The target of a reference is registered just when the reference resolves. -/
private theorem isNone_target? (v : Visit) : (v.target? r).isNone = !r.resolves v.reference := by
  rw [← isLeft_outcome, Visit.outcome]
  cases v.target? r <;> rfl

/-- The references that lead nowhere are those that do not resolve. -/
theorem flatMap_missing_all :
    Relation.all.flatMap r.missing = r.allVisits.filter fun v => !r.resolves v.reference := by
  rw [allVisits, List.filter_flatMap]
  refine List.flatMap_congr fun relation _ => ?_
  exact List.filter_congr fun v _ => isNone_target? v

namespace Grows

variable (h : r.Grows new t)

include h

/-- The entities of a kind are still there, in their order, and more may have come behind. -/
theorem ofKind (kind : Kind) : SublistForall₂ Entity.Later (r.ofKind kind) (t.ofKind kind) := by
  rw [ofKind_eq, ofKind_eq]
  exact sublistForall₂_map (sublistForall₂_of_append (h.registrations kind)) fun _ _ hxy => hxy.2

/-- A reference that was resolved is resolved to the same entity. -/
theorem target? {v w : Visit} (hw : v.Later w) {e : Entity} (he : v.target? r = some e) :
    ∃ f, w.target? t = some f ∧ e.Later f := by
  rw [Visit.target?] at he
  rw [Visit.target?, hw.target, hw.relation]
  obtain ⟨id, hid, he⟩ := Option.bind_eq_some_iff.mp he
  obtain ⟨f, hf, hlater⟩ := h.entity (Except.toOption_eq_some.mp he)
  exact ⟨f, Option.bind_eq_some_iff.mpr ⟨id, hid, Except.toOption_eq_some.mpr hf⟩, hlater⟩

/-- The visits of a relation are still made, in their order, and more may have come between. -/
theorem visits (relation : Relation) :
    SublistForall₂ Visit.Later (r.visits relation) (t.visits relation) := by
  refine sublistForall₂_flatMap (h.ofKind relation.ownerKind) fun e f hef => ?_
  obtain ⟨more, hmore⟩ := hef.targets_append relation
  rw [hmore]
  exact sublistForall₂_map_append _ more fun v => ⟨rfl, hef, rfl⟩

/-- The tasks of a phase come later as well, in the same order. -/
theorem duties (p : Phase) : SublistForall₂ Task.Later (r.duties p) (t.duties p) := by
  cases p using Phase.byContent with
  | rows kind =>
    rw [duties_kind, duties_kind]
    exact sublistForall₂_map (h.ofKind kind) fun _ _ => .row
  | links relation =>
    rw [duties_relation, duties_relation]
    exact sublistForall₂_map (h.visits relation) fun _ _ => .reference
  | overrides =>
    have haccounts := h.ofKind .account
    simp only [Registry.ofKind, List.sublistForall₂_map_left_iff,
      List.sublistForall₂_map_right_iff] at haccounts
    refine sublistForall₂_flatMap haccounts fun a b hab => ?_
    -- An account that was left alone has the same overrides, and one that was extended has more.
    have hoverrides : ∃ more, b.accountOverrides = a.accountOverrides ++ more := by
      cases hab with
      | refl => exact ⟨[], (List.append_nil _).symm⟩
      | account a rs os => exact ⟨os, rfl⟩
    obtain ⟨more, hmore⟩ := hoverrides
    rw [hmore]
    exact sublistForall₂_map_append _ more fun o => .override o hab

/-- The tasks of the compilation are still done, in their order, and more may have come between. -/
theorem tasks : SublistForall₂ Task.Later r.tasks t.tasks := by
  have hphases : SublistForall₂ Eq Phase.all Phase.all := (List.Sublist.refl _).sublistForall₂
  refine sublistForall₂_flatMap hphases fun p q hpq => ?_
  subst hpq
  exact .cons (.marker p) (h.duties p)

/-- A task leaves later what it leaves now, unless that is nothing. -/
theorem texts (hnames : t.names = r.names) {k l : Task} (hkl : k.Later l) :
    (r.texts k).Sublist (t.texts l) := by
  -- It is enough that the task is performed alike, which holds but for a reference skipped before.
  have hsame : t.perform l = r.perform k → (r.texts k).Sublist (t.texts l) := by
    intro heq
    rw [Registry.texts, Registry.texts, heq]
  cases hkl with
  | marker p => exact hsame rfl
  | row hef =>
    refine hsame ?_
    rw [perform, perform, hef.emit_eq, hef.split_eq, hnames]
  | @override a b o hab =>
    refine hsame ?_
    have hfind : b.findAccount r.names = a.findAccount r.names :=
      Option.some.inj (hab.lookup?_eq r.names)
    rw [perform, perform, overrideItem, overrideItem, hnames, hfind]
  | @reference v w hvw =>
    cases he : v.target? r with
    | none =>
      -- What was skipped left nothing, and may leave anything now.
      have hnone : r.texts (.reference v) = [] := by
        simp [Registry.texts, perform, leaves, visitItem, he, Except.toOption]
      rw [hnone]
      exact List.nil_sublist _
    | some e =>
      -- What was found is found again, with the look-up that it had.
      obtain ⟨f, hf, hlater⟩ := h.target? hvw he
      refine hsame ?_
      simp only [perform, visitItem, he, hf, Visit.statement, hvw.relation, hvw.owner.lookup?_eq,
        hlater.lookup?_eq, hnames]

end Grows

/-- A reference whose target is registered leaves its link. -/
private theorem texts_reference {v : Visit} {e : Entity} (he : v.target? r = some e) :
    r.texts (.reference v) = [v.statement r.names e] := by
  have hblank : Text.isBlank (v.statement r.names e) = false := isBlank_link _
  simp [texts, perform, leaves, visitItem, he, hblank, Except.toOption]

/-- A reference whose target is not registered leaves its diagnostic. -/
private theorem reports_reference {v : Visit} (he : v.target? r = none) :
    r.reports (.reference v) = [v.reference.diagnostic] := by
  simp [reports, perform, leaves, visitItem, he, Except.toOption]

/-- What is chosen by their references from tasks that become later ones. -/
private theorem filterMap_allVisits {α : Type} (choose : Visit → Option α) :
    r.allVisits.filterMap choose = r.tasks.flatMap fun k => (k.visit?.bind choose).toList := by
  rw [← filterMap_visit?_tasks, List.filterMap_filterMap, List.filterMap_eq_flatMap_toList]

/-- What is chosen of the visits is left in the same order by the tasks of the later compilation,
where each chosen visit leaves just it. -/
private theorem filterMap_allVisits_sublist {α : Type}
    (h : SublistForall₂ Task.Later r.tasks t.tasks)
    {choose : Visit → Option α} {left : Task → List α}
    (hleft : ∀ {v w a}, v.Later w → choose v = some a → left (.reference w) = [a]) :
    (r.allVisits.filterMap choose).Sublist (t.tasks.flatMap left) := by
  rw [filterMap_allVisits]
  refine flatMap_sublist h fun k l hkl => ?_
  -- Only a reference is chosen; all other tasks may leave what they like.
  cases hkl with
  | @reference v w hvw =>
    show (choose v).toList.Sublist _
    cases ha : choose v with
    | none => exact List.nil_sublist _
    | some a => rw [hleft hvw ha]; exact List.Sublist.refl _
  | _ => exact List.nil_sublist _

/-- Compilations before and after further commands, failing ones included.  Every statement stays,
in its place among the others, and every reference that was resolved stays resolved to the same
entity.  What was skipped is skipped again if it still does not resolve, and is written as a link
if it does. -/
theorem compile_monotone (r : Registry) (cs : List Command) {c d : Compilation}
    (hc : r.compile.result = .ok c) (hd : (r.attempts cs).compile.result = .ok d) :
    c.statements.Sublist d.statements ∧
      (∀ (v : Visit) (e : Entity), v.target? r = some e →
        ∃ f, v.target? (r.attempts cs) = some f ∧ e.Later f) ∧
      c.diagnostics
        = (r.allVisits.filter fun v => !r.resolves v.reference).map
          (fun v => v.reference.diagnostic) ∧
      ((r.allVisits.filter fun v =>
          !r.resolves v.reference && !(r.attempts cs).resolves v.reference).map
        fun v => v.reference.diagnostic).Sublist d.diagnostics ∧
      ((r.allVisits.filter fun v => !r.resolves v.reference).filterMap fun v =>
        (v.target? (r.attempts cs)).map (v.statement r.names)).Sublist d.statements := by
  obtain ⟨new, h⟩ := r.grows_attempts cs
  have hnames := r.names_attempts cs
  -- From here on the later registry matters only as one that grew out of this one.
  generalize r.attempts cs = t at *
  obtain rfl := compile_eq_tasks hc
  obtain rfl := compile_eq_tasks hd
  have hself : ∀ v : Visit, v.Later v := fun v => ⟨rfl, .refl _, rfl⟩
  refine ⟨flatMap_sublist h.tasks fun k l => h.texts hnames, fun v e => h.target? (hself v),
    ?_, ?_, ?_⟩
  · exact (diagnostics_of_compile hc).trans (congrArg _ flatMap_missing_all)
  · -- What is still missing later leaves its diagnostic again.
    rw [← List.filterMap_eq_map, List.filterMap_filter]
    refine filterMap_allVisits_sublist h.tasks fun {v w a} hvw ha => ?_
    simp only [Bool.and_eq_true, Bool.not_eq_true', Option.ite_none_right_eq_some] at ha
    obtain ⟨⟨-, hmissing⟩, ha⟩ := ha
    have hnone : w.target? t = none := by
      rw [← Option.isNone_iff_eq_none, isNone_target?, hvw.reference_eq, hmissing]
      rfl
    rw [reports_reference hnone, hvw.reference_eq]
    exact congrArg (fun d => [d]) (Option.some.inj ha)
  · -- What is found by now leaves its link in the place of the diagnostic.
    rw [List.filterMap_filter]
    refine filterMap_allVisits_sublist h.tasks fun {v w a} hvw ha => ?_
    simp only [Bool.not_eq_true', Option.ite_none_right_eq_some] at ha
    obtain ⟨-, ha⟩ := ha
    obtain ⟨e, he, rfl⟩ := Option.map_eq_some_iff.mp ha
    have he' : w.target? t = some e := by
      rw [← he, Visit.target?, Visit.target?, hvw.target, hvw.relation]
    rw [texts_reference he', Visit.statement, Visit.statement, hvw.relation,
      hvw.owner.lookup?_eq, hnames]

/-- Attempts on the small graph: the first is refused, and the second registers the permission that
its group lacks. -/
def lateCommands : List Command :=
  [.define (.group "h" (.ofTable [("name", .text "staff")])),
    .define (.systemPermission "gone" (.text "account") (.text "update") (.text "edit") .null
      .null),
    .link (.rolePermission "r" (.text "p"))]

/-- A reference that was skipped is written as a link once its target is registered, and all else
stays where it was. -/
theorem compile_monotone_late :
    ∃ c d, sample.compile.result = .ok c ∧ (sample.attempts lateCommands).compile.result = .ok d ∧
      c.statements.Sublist d.statements ∧ c.diagnostics.length = 1 ∧
      ∃ links : List String, links.length = 1 ∧ links.Sublist d.statements := by
  have hok : sample.compile.result.isOk = true := by decide +kernel
  have hok' : (sample.attempts lateCommands).compile.result.isOk = true := by decide +kernel
  obtain ⟨c, hc⟩ := Except.exists_of_isOk hok
  obtain ⟨d, hd⟩ := Except.exists_of_isOk hok'
  -- Both compilations are computed, and the theorem relates them.
  obtain ⟨hstatements, -, hdiagnostics, -, hlinks⟩ := compile_monotone sample lateCommands hc hd
  refine ⟨c, d, hc, hd, hstatements, ?_, _, ?_, hlinks⟩
  · rw [hdiagnostics]
    decide +kernel
  · decide +kernel

end Registry

end AccessGraph
