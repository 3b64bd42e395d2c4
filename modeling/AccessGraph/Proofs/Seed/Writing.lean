import AccessGraph.Proofs.Preset.Roots
import AccessGraph.Seed.Generation

/-!
# The output file of the seed

`Seed.produce` goes through the steps of a run in their order, with the output file as the state:
the file keeps what a step has done to it, whatever goes wrong later.  Only the last step touches
it.  A graph is refused when it is built (`Preset.Refused`) or not at all: what can be built passes
strict validation and can be compiled.  So the file holds a whole script after a run or is as it was
before, and strictness makes no difference (`Seed.file_written_or_kept`).
-/

namespace AccessGraph

namespace Preset

/-! ## Which graphs are refused -/

/-- Why no graph of a name is built: the name is unknown, the name of a schema is not accepted, or
a sample account is given as the root account.  They are found out in this order. -/
inductive Refused (names : Names) (template : String) (root : Option String) : Error → Prop
  | template : (∀ p : Preset, p.name ≠ template) →
    Refused names template root
      (.unknownPreset template ["saas", "small_team", "solo", "starter"])
  | schema {p : Preset} : p.name = template → isSchemaName names.schema = false →
    Refused names template root (.schemaName .schema names.schema)
  | authSchema {p : Preset} : p.name = template → isSchemaName names.schema = true →
    isSchemaName names.authSchema = false →
    Refused names template root (.schemaName .auth names.authSchema)
  | sample {p : Preset} {id : String} : p.name = template → isSchemaName names.schema = true →
    isSchemaName names.authSchema = true → id ∈ p.samples → root = some id →
    Refused names template root (.duplicateId .account id)

variable {names : Names} {template : String} {root : Option String}

/-- A template of no preset's name is refused, and the error lists the names in order. -/
private theorem ofName_eq_error (h : ∀ p : Preset, p.name ≠ template) :
    ofName template
      = .error (.unknownPreset template ["saas", "small_team", "solo", "starter"]) := by
  have hnone : ofName? template = none := by
    rw [ofName?, List.find?_eq_none]
    exact fun p _ => by simpa using h p
  rw [ofName, hnone]
  rfl

/-- Where no registry can be created, no preset is built. -/
private theorem buildNamed_of_create {p : Preset} {e : Error}
    (h : Registry.create names none none = .error e) :
    buildNamed p.name root names = .error e := by
  have hname : ofName p.name = .ok p := by rw [ofName, ofName?_name]
  simp only [buildNamed, build, hname, h, bind, Except.bind]

/-- What is refused is not built. -/
private theorem Refused.buildNamed_eq {e : Error} (h : Refused names template root e) :
    buildNamed template root names = .error e := by
  cases h with
  | template hunknown =>
    rw [buildNamed, ofName_eq_error hunknown]
    rfl
  | schema hp hschema =>
    subst hp
    exact buildNamed_of_create (Registry.create_of_schema hschema)
  | authSchema hp hschema hauth =>
    subst hp
    exact buildNamed_of_create (Registry.create_of_authSchema hschema hauth)
  -- The only refusal of a known template under accepted names is for its own sample account.
  | sample hp hschema hauth hid hroot =>
    subst hp hroot
    rw [buildNamed_eq _ _ hschema hauth, run_plan_of_sample _ hid names]
    rfl

/-- What a plan leads to, under any names and for any root account that is no sample, passes strict
validation and can be compiled. -/
private theorem exists_script (p : Preset) (hschema : isSchemaName names.schema = true)
    (hauth : isSchemaName names.authSchema = true) (hroot : ∀ id ∈ p.samples, root ≠ some id) :
    ∃ r script, buildNamed p.name root names = .ok r ∧ r.validate = .ok () ∧
      r.toScript.result = .ok script := by
  have hfresh := not_mem_samples hroot
  obtain ⟨t, ht, hcomplete, hfields, -⟩ := p.exists_trial
  -- The plan is the trial's, up to the root's identifier and the schema names.
  have hrun := p.run_plan hfresh names ht
  generalize Equiv.swap p.defaultRoot (orDefault p.defaultRoot root) = σ at hrun
  have hbuilt : Registry.Built ((t.readdress σ).withNames names) := by
    have h := (Registry.Built.create (create_eq hschema hauth)).run (p.script_not_mem_plan hfresh)
    rwa [hrun] at h
  have hcomplete' : ((t.readdress σ).withNames names).IsComplete :=
    Registry.isComplete_withNames names (Registry.isComplete_readdress σ hcomplete)
  -- Neither of these is a value that may have no literal.
  obtain ⟨c, hc, -⟩ := Registry.compile_of_isComplete hbuilt.sound hcomplete' (by
    rw [Registry.fallible_withNames, Registry.fallible_readdress, hfields])
  refine ⟨(t.readdress σ).withNames names, Sql.script c.statements, ?_, hcomplete'.validate, ?_⟩
  · rw [buildNamed_eq p root hschema hauth, hrun]
    rfl
  · simp only [Registry.toScript, Registry.generate, hc]
    rfl

/-- A graph is refused, or it is built and can be validated and compiled. -/
private theorem buildNamed_cases (names : Names) (template : String) (root : Option String) :
    (∃ r script, buildNamed template root names = .ok r ∧ r.validate = .ok () ∧
      r.toScript.result = .ok script) ∨ ∃ e, Refused names template root e := by
  -- The reasons to refuse a template are looked at in the order of the checks.
  by_cases hknown : ∃ p : Preset, p.name = template
  · obtain ⟨p, rfl⟩ := hknown
    cases hschema : isSchemaName names.schema with
    | false => exact .inr ⟨_, .schema rfl hschema⟩
    | true =>
      cases hauth : isSchemaName names.authSchema with
      | false => exact .inr ⟨_, .authSchema rfl hschema hauth⟩
      | true =>
        by_cases hroot : ∃ id ∈ p.samples, root = some id
        · obtain ⟨id, hid, hroot⟩ := hroot
          exact .inr ⟨_, .sample rfl hschema hauth hid hroot⟩
        · exact .inl (p.exists_script hschema hauth fun id hid heq => hroot ⟨id, hid, heq⟩)
  · exact .inr ⟨_, .template fun p hp => hknown ⟨p, hp⟩⟩

end Preset

/-! ## Levels of log -/

/-- Whether a text is the name of a level of log, in whatever case. -/
def Threshold.IsStandard (name : String) : Prop :=
  String.ofList (name.toList.flatMap upperLetters) ∈ known.map Prod.fst

instance (name : String) : Decidable (Threshold.IsStandard name) :=
  inferInstanceAs (Decidable (_ ∈ _))

/-- A standard name of a level is one. -/
private theorem Threshold.ofName_of_isStandard {name : String} (h : IsStandard name) :
    ∃ t, ofName name = .ok t := by
  have hfree : ∀ n ∈ known.map Prod.fst, taken.lookup n = none := by decide
  exact ⟨_, by simp only [ofName, hfree _ h]; rfl⟩

namespace Seed

/-! ## The steps of a run -/

/-- A run that can fail, with the output file as its state: what was done to the file stays done. -/
abbrev Run := ExceptT Error (StateM (Option String))

/-- What a request comes to when its steps are taken one after another. -/
def produce (names : Names) (q : Request) : Run Unit := do
  let r ← liftExcept (Preset.buildNamed q.template q.root names)
  if q.strict then liftExcept r.validate
  let script ← liftExcept r.toScript.result
  set (some script)

theorem liftExcept_ok {α : Type} (a : α) :
    (liftExcept (.ok a : Except Error α) : Run α) = pure a := rfl

variable {names : Names} {q : Request} {before : Option String}

/-- A template that is refused leaves the file as it was. -/
private theorem produce_of_refused {e : Error} (h : Preset.Refused names q.template q.root e) :
    produce names q before = (.error e, before) := by
  simp only [produce, h.buildNamed_eq]
  rfl

/-- A preset that is built, valid and written down ends in the file, whatever was there. -/
private theorem produce_of_built {r : Registry} {script : String}
    (hbuilt : Preset.buildNamed q.template q.root names = .ok r) (hvalid : r.validate = .ok ())
    (hscript : r.toScript.result = .ok script) :
    produce names q before = (.ok (), some script) := by
  simp only [produce, hbuilt, liftExcept_ok, pure_bind, hvalid, hscript]
  cases q.strict <;> rfl

/-- A template that is refused gives no script. -/
private theorem generate_of_refused {e : Error} (h : Preset.Refused names q.template q.root e) :
    (generate names q).result = .error e := by
  simp only [generate, h.buildNamed_eq]

/-- A preset that is built, valid and written down gives its script. -/
private theorem generate_of_built {r : Registry} {script : String}
    (hbuilt : Preset.buildNamed q.template q.root names = .ok r) (hvalid : r.validate = .ok ())
    (hscript : r.toScript.result = .ok script) :
    (generate names q).result = .ok script := by
  simp only [generate, hbuilt, checkGraph, hvalid, writeGraph, hscript]
  cases q.strict <;> rfl

/-- A run writes a whole script or fails with the file as it was. -/
theorem produce_cases (names : Names) (q : Request) (before : Option String) :
    (∃ r script, Preset.buildNamed q.template q.root names = .ok r ∧ r.validate = .ok () ∧
      r.toScript.result = .ok script ∧ produce names q before = (.ok (), some script) ∧
      (generate names q).result = .ok script) ∨
    ∃ e, Preset.Refused names q.template q.root e ∧ produce names q before = (.error e, before) ∧
      (generate names q).result = .error e := by
  rcases Preset.buildNamed_cases names q.template q.root with
    ⟨r, script, hbuilt, hvalid, hscript⟩ | ⟨e, hrefused⟩
  · exact .inl ⟨r, script, hbuilt, hvalid, hscript, produce_of_built hbuilt hvalid hscript,
      generate_of_built hbuilt hvalid hscript⟩
  · exact .inr ⟨e, hrefused, produce_of_refused hrefused, generate_of_refused hrefused⟩

/-- What a run does to the file is what its result tells. -/
theorem produce_eq_generate (names : Names) (q : Request) (before : Option String) :
    produce names q before
      = ((generate names q).result.map fun _ => (),
        fileAfter before (generate names q).result) := by
  rcases produce_cases names q before with
    ⟨r, script, -, -, -, hproduce, hresult⟩ | ⟨e, -, hproduce, hresult⟩
  · rw [hproduce, hresult]
    rfl
  · rw [hproduce, hresult]
    rfl

/-- A run fails just when the graph is refused. -/
private theorem generate_eq_error_iff {e : Error} :
    (generate names q).result = .error e ↔ Preset.Refused names q.template q.root e := by
  refine ⟨fun h => ?_, generate_of_refused⟩
  rcases produce_cases names q none with
    ⟨r, script, -, -, -, -, hresult⟩ | ⟨e', hrefused, -, hresult⟩
  · rw [hresult] at h
    simp at h
  · rw [hresult] at h
    rwa [← Except.error.inj h]

/-- Whether strict validation is asked for makes no difference to the result. -/
private theorem produce_withStrict (names : Names) (q : Request) (before : Option String)
    (strict : Bool) :
    produce names { q with strict } before = produce names q before := by
  rcases Preset.buildNamed_cases names q.template q.root with
    ⟨r, script, hbuilt, hvalid, hscript⟩ | ⟨e, hrefused⟩
  · rw [produce_of_built (q := q) hbuilt hvalid hscript]
    exact produce_of_built hbuilt hvalid hscript
  · rw [produce_of_refused (q := q) hrefused]
    exact produce_of_refused hrefused

/-- A run from the command line at a level of log that has a name tells by its exit code whether it
failed, and does to the file what its request does. -/
theorem run_eq_produce {s : Settings} (h : Threshold.IsStandard s.logLevel)
    (before : Option String) :
    ∃ o, run s = .ok o ∧
      (o.exitCode = 1 ↔ ∃ e, (produce s.names (.ofSettings s) before).1 = .error e) ∧
      (o.exitCode = 0 ↔ (produce s.names (.ofSettings s) before).1 = .ok ()) ∧
      o.script.or before = (produce s.names (.ofSettings s) before).2 := by
  obtain ⟨threshold, ht⟩ := Threshold.ofName_of_isStandard h
  -- A standard level is accepted, and what follows is told by the result of the generation.
  refine ⟨runAt threshold s, by rw [run, ht]; rfl, ?_⟩
  rw [produce_eq_generate, runAt]
  cases (generate s.names (.ofSettings s)).result with
  | ok script => simp [Except.toOption, Except.map, fileAfter]
  | error e => simp [Except.toOption, Except.map, fileAfter]

/-- A run either writes the script of the graph that is built, which passes strict validation, or is
refused and leaves the file as it was before, absent or not.  Which of the two it is, and with which
error, depends neither on the file nor on whether strict validation is asked for.  From the command
line it is the same, and the exit code is 1 if the run is refused and 0 if it is not. -/
theorem file_written_or_kept (names : Names) (q : Request) (before : Option String) :
    ((∃ r script, Preset.buildNamed q.template q.root names = .ok r ∧ r.validate = .ok () ∧
        r.toScript.result = .ok script ∧ produce names q before = (.ok (), some script)) ∨
      ∃ e, Preset.Refused names q.template q.root e ∧
        produce names q before = (.error e, before)) ∧
    (∀ e, (produce names q before).1 = .error e ↔ Preset.Refused names q.template q.root e) ∧
    produce names q before
      = ((generate names q).result.map fun _ => (), fileAfter before (generate names q).result) ∧
    (∀ strict, produce names { q with strict } before = produce names q before) ∧
    ∀ s : Settings, Threshold.IsStandard s.logLevel → s.names = names → .ofSettings s = q →
      ∃ o, run s = .ok o ∧
        (o.exitCode = 1 ↔ ∃ e, (produce names q before).1 = .error e) ∧
        (o.exitCode = 0 ↔ (produce names q before).1 = .ok ()) ∧
        o.script.or before = (produce names q before).2 := by
  refine ⟨?_, fun e => ?_, produce_eq_generate names q before,
    produce_withStrict names q before, ?_⟩
  · -- Either everything succeeds and is written, or the file is kept.
    rcases produce_cases names q before with
      ⟨r, script, hbuilt, hvalid, hscript, hproduce, -⟩ | ⟨e, hrefused, hproduce, -⟩
    · exact .inl ⟨r, script, hbuilt, hvalid, hscript, hproduce⟩
    · exact .inr ⟨e, hrefused, hproduce⟩
  · rw [← generate_eq_error_iff, produce_eq_generate, Except.map_eq_error]
  · rintro s hs rfl rfl
    exact run_eq_produce hs before

/-- The settings of a run that gives a sample account as the root account. -/
def overlapping : Settings :=
  { Settings.default with
    seedTemplate := "starter"
    rootAccountId := some Preset.Starter.sampleMember
    logLevel := "warn" }

/-- The default settings replace a file; a root that is a sample account fails, and the file
stays. -/
theorem file_written_or_kept_sample :
    Threshold.IsStandard Settings.default.logLevel ∧
      (∃ o script, run Settings.default = .ok o ∧ o.exitCode = 0 ∧
        o.script.or (some "SELECT 1;") = some script ∧
        produce Settings.default.names (.ofSettings Settings.default) (some "SELECT 1;")
          = (.ok (), some script)) ∧
      Threshold.IsStandard overlapping.logLevel ∧
      ∃ o, run overlapping = .ok o ∧ o.exitCode = 1 ∧
        o.script.or (some "SELECT 1;") = some "SELECT 1;" := by
  have hlevel : Threshold.IsStandard Settings.default.logLevel := by decide +kernel
  have hlevel' : Threshold.IsStandard overlapping.logLevel := by decide +kernel
  -- The default settings give none of the reasons to refuse a template.
  have haccepted : ∀ e, ¬ Preset.Refused Settings.default.names "solo" none e := by
    rintro e (hunknown | ⟨-, hschema⟩ | ⟨-, -, hauth⟩ | ⟨-, -, -, -, hroot⟩)
    · exact hunknown .solo rfl
    · exact absurd hschema (by decide)
    · exact absurd hauth (by decide)
    · exact absurd hroot (by simp)
  have hrefused : Preset.Refused overlapping.names "starter"
      (some Preset.Starter.sampleMember) (.duplicateId .account Preset.Starter.sampleMember) :=
    .sample (p := .starter) rfl (by decide) (by decide) (by decide) rfl
  obtain ⟨hdefault, -, -, -, hrun⟩ := file_written_or_kept Settings.default.names
    (.ofSettings Settings.default) (some "SELECT 1;")
  obtain ⟨hoverlap, hfails, -, -, hrun'⟩ := file_written_or_kept overlapping.names
    (.ofSettings overlapping) (some "SELECT 1;")
  refine ⟨hlevel, ?_, hlevel', ?_⟩
  · obtain ⟨-, script, -, -, -, hproduce⟩ | ⟨e, hno, -⟩ := hdefault
    · obtain ⟨o, ho, -, hexit, hfile⟩ := hrun _ hlevel rfl rfl
      rw [hproduce] at hexit hfile
      exact ⟨o, script, ho, hexit.mpr rfl, hfile, hproduce⟩
    · exact absurd hno (haccepted e)
  · -- The other settings name a sample account as the root.
    have herror := (hfails _).mpr hrefused
    obtain ⟨o, ho, hexit, -, hfile⟩ := hrun' _ hlevel' rfl rfl
    obtain ⟨_, _, -, -, -, hproduce⟩ | ⟨e, -, hproduce⟩ := hoverlap
    · rw [hproduce] at herror
      simp at herror
    · rw [hproduce] at hfile
      exact ⟨o, ho, hexit.mpr ⟨_, herror⟩, hfile⟩

end Seed

end AccessGraph
