import AccessGraph.Proofs.Compilation.Failures
import AccessGraph.Proofs.Compilation.Monotone

/-!
# What is reported on a compilation

A phase is told when it begins, before any of its tasks, so that the log of a compilation that fails
ends with the phase of the task that failed (`Registry.runPhases_of_error`).  Skipped references and
totals are told last, when all tasks are done.  `Registry.generate_reports` gives the whole log for
either outcome: no reference is skipped without a warning, and no warning comes from a compilation
that fails.
-/

namespace AccessGraph

/-- The warning that the target of a reference is not registered. -/
def Reference.warning (ref : Reference) : LogRecord :=
  ⟨.warning, "Warning: " ++ ref.targetKind.noun ++ " with ID '" ++ ref.targetId.display
    ++ "' not found" ++ " when assigning to " ++ ref.ownerKind.innerNoun ++ " '"
    ++ ref.ownerId.shown ++ "'"⟩

/-- The warning that is logged for a diagnostic is that of its reference. -/
private theorem warning_diagnostic (ref : Reference) :
    Compilation.warning ref.diagnostic = ref.warning := by
  simp only [Compilation.warning, Reference.diagnostic, Reference.warning, notFoundMessage,
    String.append_assoc]

/-! ## The first failure -/

section Gather

variable {ε α β : Type} {f : α → Except ε (List β)} {as : List α}

/-- Gathering succeeds when every step does. -/
private theorem gather_isOk_iff :
    (∃ bs, gather f as = .ok bs) ↔ ∀ a ∈ as, ∃ bs, f a = .ok bs := by
  simp only [← failure?_eq_none, failure?_gather, List.findSome?_eq_none_iff]

/-- Gathering fails with the failure of a step that comes behind successful ones. -/
private theorem gather_eq_error {e : ε} :
    gather f as = .error e ↔ ∃ before a after, as = before ++ a :: after ∧
      (∀ b ∈ before, ∃ bs, f b = .ok bs) ∧ f a = .error e := by
  simp only [← failure?_eq_some, ← failure?_eq_none, failure?_gather, List.findSome?_eq_some_iff]
  constructor
  · rintro ⟨before, a, after, has, ha, hbefore⟩
    exact ⟨before, a, after, has, hbefore, ha⟩
  · rintro ⟨before, a, after, has, hbefore, ha⟩
    exact ⟨before, a, after, has, ha, hbefore⟩

end Gather

namespace Registry

variable {r : Registry}

/-! ## The phases begun -/

/-- All phases are begun if none of them fails. -/
theorem runPhases_of_ok {ps : List Phase} {items : List Item}
    (h : (r.runPhases ps).2 = .ok items) : (r.runPhases ps).1 = ps := by
  induction ps generalizing items with
  | nil => rfl
  | cons p ps ih =>
    rw [runPhases] at h ⊢
    split at h
    · simp at h
    · obtain ⟨more, hmore, -⟩ := Except.map_eq_ok.mp h
      exact congrArg (p :: ·) (ih hmore)

/-- The phases begun are those that succeed and, behind them, the first that fails. -/
theorem runPhases_of_error {ps : List Phase} {failure : Failure}
    (h : (r.runPhases ps).2 = .error failure) :
    ∃ before p after, ps = before ++ p :: after ∧ (r.runPhases ps).1 = before ++ [p] ∧
      (∀ q ∈ before, ∃ items, r.items q = .ok items) ∧ r.items p = .error failure := by
  -- The induction is on the phases that are left; the log names those that were begun.
  induction ps with
  | nil => simp [runPhases] at h
  | cons p ps ih =>
    rw [runPhases] at h ⊢
    split at h
    · next hhere =>
      obtain rfl := Except.error.inj h
      exact ⟨[], p, ps, rfl, rfl, by simp, hhere⟩
    · next items hitems =>
      obtain ⟨before, q, after, rfl, hbegun, hbefore, hq⟩ := ih (Except.map_eq_error.mp h)
      refine ⟨p :: before, q, after, rfl, congrArg (p :: ·) hbegun, ?_, hq⟩
      exact List.forall_mem_cons.mpr ⟨⟨items, hitems⟩, hbefore⟩

/-- A phase succeeds when all its tasks do. -/
private theorem items_isOk_iff {p : Phase} :
    (∃ items, r.items p = .ok items) ↔ ∀ k ∈ r.duties p, ∃ items, r.perform k = .ok items := by
  rw [items_eq_gather, gather_isOk_iff]

/-! ## The log -/

/-- A compilation that gives statements is logged to its end. -/
theorem generate_of_ok {c : Compilation} (h : r.compile.result = .ok c) :
    r.generate = ⟨r.compile.log ++ c.report, .ok c.statements⟩ := by
  simp only [generate, h]

/-- A compilation that fails is logged up to the failure, and nothing is summed up. -/
theorem generate_of_error {e : Error} (h : r.compile.result = .error e) :
    r.generate = ⟨r.compile.log, .error e⟩ := by
  simp only [generate, h]

/-- The statements of a compilation, phase by phase: the marker, and what the tasks leave. -/
theorem statements_of_compile {c : Compilation} (h : r.compile.result = .ok c) :
    c.statements = Phase.all.flatMap fun p => p.marker :: (r.duties p).flatMap r.texts := by
  have hmarker : ∀ p, r.texts (.marker p) = [p.marker] := by
    intro p
    simp [texts, perform, leaves, Except.toOption, Item.statement?, isBlank_marker]
  rw [compile_eq_tasks h, tasks, List.flatMap_assoc]
  refine List.flatMap_congr fun p _ => ?_
  rw [List.flatMap_cons, hmarker]
  rfl

/-- The log of a compilation that succeeds, as it is reported. -/
private theorem log_of_ok {c : Compilation} (h : r.compile.result = .ok c) :
    r.generate.log = Phase.all.map Compilation.phaseRecord
      ++ (r.allVisits.filter fun v => !r.resolves v.reference).map (fun v => v.reference.warning)
      ++ [c.totals] := by
  -- Where all phases give items, each of them is logged once.
  have hall : r.compile.log = Phase.all.map Compilation.phaseRecord := by
    have hphases := h
    simp only [compile] at hphases ⊢
    split at hphases
    · next items hitems => rw [runPhases_of_ok hitems]
    · simp at hphases
  rw [generate_of_ok h, hall, Compilation.report, diagnostics_of_compile h, flatMap_missing_all,
    List.map_map, List.append_assoc]
  simp only [Function.comp_def, warning_diagnostic]

/-- The log of a compilation that fails, up to the phase of the task that fails. -/
private theorem log_of_error {failure : Failure}
    (h : r.compile.result = .error (.compilation failure)) :
    ∃ before p after done k rest, Phase.all = before ++ p :: after ∧
      r.duties p = done ++ k :: rest ∧
      (∀ q ∈ before, ∀ j ∈ r.duties q, ∃ items, r.perform j = .ok items) ∧
      (∀ j ∈ done, ∃ items, r.perform j = .ok items) ∧ r.perform k = .error failure ∧
      r.generate.log = (before ++ [p]).map Compilation.phaseRecord := by
  -- Only a phase can fail in this way, not what follows the phases.
  have hphases : (r.runPhases Phase.all).2 = .error failure := by
    simp only [compile] at h
    split at h
    · split at h <;> simp at h
    · next e he =>
      obtain rfl := Error.compilation.inj (Except.error.inj h)
      exact he
  obtain ⟨before, p, after, hall, hbegun, hbefore, hp⟩ := runPhases_of_error hphases
  -- Within the phase that fails, the tasks before the one that fails were done.
  rw [items_eq_gather] at hp
  obtain ⟨done, k, rest, hduties, hdone, hk⟩ := gather_eq_error.mp hp
  refine ⟨before, p, after, done, k, rest, hall, hduties, ?_, hdone, hk, ?_⟩
  · exact fun q hq => items_isOk_iff.mp (hbefore q hq)
  · rw [generate_of_error h, ← hbegun]
    rfl

/-- A compilation, if it does not meet a list in the place of a statement, succeeds or fails with
the failure of an entity. -/
theorem compile_outcome (h : r.emitsList = false) :
    (∃ c, r.compile.result = .ok c) ∨
      ∃ failure, r.compile.result = .error (.compilation failure) := by
  simp only [compile, h, Bool.false_eq_true, ↓reduceIte]
  cases (r.runPhases Phase.all).2 with
  | ok items => exact .inl ⟨_, rfl⟩
  | error failure => exact .inr ⟨failure, rfl⟩

/-- What is reported on a compilation.  If it succeeds, its statements are handed out, which have
the markers of the ten phases in them; the log has a record for each phase, then a warning for each
reference that does not resolve, in the order of the visits, and last the numbers of the statements
and of the warnings.  If a task fails, the log has a record for each phase up to the one of the
task, and nothing else. -/
theorem generate_reports (r : Registry) :
    (r.emitsList = false → (∃ ss, r.generate.result = .ok ss) ∨
      ∃ failure, r.generate.result = .error (.compilation failure)) ∧
    (∀ ss, r.generate.result = .ok ss →
      (∃ c, r.compile.result = .ok c ∧ c.statements = ss) ∧
      ss = Phase.all.flatMap (fun p => ("-- " ++ p.title) :: (r.duties p).flatMap r.texts) ∧
      r.generate.log
        = Phase.all.map (fun p => ⟨.debug, "Phase: " ++ p.title⟩)
          ++ (r.allVisits.filter fun v => !r.resolves v.reference).map
            (fun v => v.reference.warning)
          ++ [⟨.info, "Generated " ++ Text.natText ss.length ++ " statements ("
            ++ Text.natText (r.allVisits.filter fun v => !r.resolves v.reference).length
            ++ " relationships skipped)"⟩]) ∧
    ∀ failure, r.generate.result = .error (.compilation failure) →
      ∃ before p after done k rest, Phase.all = before ++ p :: after ∧
        r.duties p = done ++ k :: rest ∧
        (∀ q ∈ before, ∀ j ∈ r.duties q, ∃ items, r.perform j = .ok items) ∧
        (∀ j ∈ done, ∃ items, r.perform j = .ok items) ∧ r.perform k = .error failure ∧
        r.generate.log = (before ++ [p]).map fun q => ⟨.debug, "Phase: " ++ q.title⟩ := by
  refine ⟨fun h => ?_, fun ss h => ?_, fun failure h => ?_⟩
  · -- Without a list of statements the compilation gives statements or fails in a phase.
    rcases compile_outcome h with ⟨c, hc⟩ | ⟨failure, hfailure⟩
    · exact .inl ⟨_, congrArg Logged.result (generate_of_ok hc)⟩
    · exact .inr ⟨_, congrArg Logged.result (generate_of_error hfailure)⟩
  · cases hc : r.compile.result with
    | error e =>
      rw [generate_of_error hc] at h
      simp at h
    | ok c =>
      have hss : c.statements = ss := by
        rw [generate_of_ok hc] at h
        exact Except.ok.inj h
      refine ⟨⟨c, rfl, hss⟩, hss.symm.trans (statements_of_compile hc), ?_⟩
      rw [log_of_ok hc, Compilation.totals, hss, diagnostics_of_compile hc, flatMap_missing_all,
        List.length_map]
      rfl
  · -- A failure to compile is passed on as it is.
    cases hc : r.compile.result with
    | ok c =>
      rw [generate_of_ok hc] at h
      simp at h
    | error e =>
      rw [generate_of_error hc] at h
      obtain rfl := Except.error.inj h
      exact log_of_error hc

/-- The small graph with an override whose window begins too early: the permission that its group
lacks is met before. -/
def halted : Registry :=
  (sample.run [.link (.override "a" true (.text "read") ⟨early, .null, .null⟩)]).1

/-- One reference is skipped and reported once; where a literal is missing, the log ends at its
phase. -/
theorem generate_reports_sample :
    (∃ ss, sample.generate.result = .ok ss ∧
      sample.generate.log = Phase.all.map (fun p => ⟨.debug, "Phase: " ++ p.title⟩)
        ++ [⟨.warning, "Warning: Permission with ID 'gone' not found when assigning to "
            ++ "permission group 'g'"⟩]
        ++ [⟨.info, "Generated " ++ Text.natText ss.length ++ " statements ("
            ++ Text.natText 1 ++ " relationships skipped)"⟩]) ∧
    ∃ failure, halted.generate.result = .error (.compilation failure) ∧
      (halted.allVisits.filter fun v => !halted.resolves v.reference).length = 1 ∧
      ∀ record ∈ halted.generate.log, record.level = .debug := by
  obtain ⟨-, hok, -⟩ := generate_reports sample
  obtain ⟨houtcome, -, hfails⟩ := generate_reports halted
  obtain ⟨ss, hss⟩ : ∃ ss, sample.generate.result = .ok ss :=
    Except.exists_of_isOk (by decide +kernel)
  obtain ⟨-, -, hlog⟩ := hok ss hss
  have hwarnings : (sample.allVisits.filter fun v => !sample.resolves v.reference).map
      (fun v => v.reference.warning)
        = [⟨.warning, "Warning: Permission with ID 'gone' not found when assigning to "
            ++ "permission group 'g'"⟩] := by decide +kernel
  have hcount : (sample.allVisits.filter fun v => !sample.resolves v.reference).length = 1 := by
    decide +kernel
  refine ⟨⟨ss, hss, ?_⟩, ?_⟩
  · rw [hlog, hwarnings, hcount]
  · -- The other registry fails before it gets to sum anything up.
    have hnot : halted.generate.result.isOk = false := by decide +kernel
    rcases houtcome (by decide +kernel) with ⟨ss, hss⟩ | ⟨failure, hfailure⟩
    · rw [hss] at hnot
      exact absurd hnot Bool.noConfusion
    · obtain ⟨before, p, -, -, -, -, -, -, -, -, -, hlog⟩ := hfails failure hfailure
      refine ⟨failure, hfailure, by decide +kernel, fun record hrecord => ?_⟩
      rw [hlog] at hrecord
      obtain ⟨q, -, rfl⟩ := List.mem_map.mp hrecord
      rfl

end Registry

end AccessGraph
