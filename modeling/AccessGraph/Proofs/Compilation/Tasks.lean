import AccessGraph.Proofs.Compilation.References

/-!
# A compilation as a list of tasks

The phases of a compilation go through lists of different sorts: entities, references, overrides.
`Registry.tasks` puts them into one list, with a marker in front of each phase, and
`Registry.perform` does one task.  A compilation performs the tasks one after another
(`Registry.runPhases_eq_gather`); if it succeeds, its statements and diagnostics are those of the
single tasks (`Registry.compile_eq_tasks`), whatever is emitted.
-/

namespace AccessGraph

/-! ## Gathering -/

section Gather

variable {ε α β γ : Type} {f : α → Except ε (List β)}

/-- Steps over the values of a map are steps over what was mapped. -/
private theorem gather_map (g : γ → α) (cs : List γ) :
    gather f (cs.map g) = gather (fun c => f (g c)) cs := by
  induction cs with
  | nil => rfl
  | cons c cs ih => rw [List.map_cons, gather, gather, ih]

/-- Steps over two lists are steps over the one and then the other. -/
private theorem gather_append (as bs : List α) :
    gather f (as ++ bs) = gather f as >>= fun xs => (gather f bs).map (xs ++ ·) := by
  -- The first failure of the first list comes before any of the second.
  induction as with
  | nil => cases hbs : gather f bs <;> simp [gather, hbs, bind, Except.bind, Except.map]
  | cons a as ih =>
    rw [List.cons_append, gather, gather, ih]
    cases f a with
    | error e => rfl
    | ok xs =>
      cases gather f as with
      | error e => rfl
      | ok ys => cases gather f bs <;> simp [bind, Except.bind, Except.map]

/-- Steps over lists that are set end to end are steps over each list. -/
private theorem gather_flatMap (g : γ → List α) (cs : List γ) :
    gather f (cs.flatMap g) = gather (fun c => gather f (g c)) cs := by
  induction cs with
  | nil => rfl
  | cons c cs ih =>
    rw [List.flatMap_cons, gather_append, ih, gather]
    cases gather f (g c) <;> rfl

/-- What a step on a member leaves, which is nothing if it fails. -/
def leaves (x : Except ε (List β)) : List β := x.toOption.getD []

/-- What is gathered with success is what the single steps leave. -/
private theorem flatMap_leaves_of_gather {as : List α} {bs : List β} (h : gather f as = .ok bs) :
    bs = as.flatMap fun a => leaves (f a) := by
  -- As nothing failed, each step left what it gave.
  induction as generalizing bs with
  | nil => exact (Except.ok.inj h).symm
  | cons a as ih =>
    rw [gather] at h
    split at h
    · simp at h
    · next xs hxs =>
      obtain ⟨ys, hys, rfl⟩ := Except.map_eq_ok.mp h
      rw [List.flatMap_cons, ← ih hys, hxs]
      rfl

end Gather

/-! ## Tasks -/

/-- A piece of work of a compilation. -/
inductive Task where
  | marker (phase : Phase)
  /-- The rows that an entity emits. -/
  | row (entity : Entity)
  | reference (visit : Visit)
  | override (owner : Entry Account) (override : Override)

/-- The visit of a task that is one. -/
def Task.visit? : Task → Option Visit
  | .reference v => some v
  | _ => none

/-- The statements of an emission, by what is due from the entity. -/
def Entity.split : Entity → Emission → List String
  | .account _ => Emission.members
  | _ => Emission.texts

namespace Registry

variable (r : Registry)

/-- Does one task. -/
def perform : Task → Except Failure (List Item)
  | .marker p => .ok [.statement p.marker]
  | .row e => emitted e.split (e.emit r.names)
  | .reference v => .ok [r.visitItem v]
  | .override a o => overrideItem r.names a o

/-- The tasks of a phase. -/
def duties : Phase → List Task
  | .settings => (r.ofKind .setting).map .row
  | .permissions => (r.ofKind .permission).map .row
  | .groups => (r.ofKind .group).map .row
  | .roles => (r.ofKind .role).map .row
  | .accounts => (r.ofKind .account).map .row
  | .groupPermissions => (r.visits .groupPermission).map .reference
  | .rolePermissions => (r.visits .rolePermission).map .reference
  | .roleGroups => (r.visits .roleGroup).map .reference
  | .accountRoles => (r.visits .accountRole).map .reference
  | .overrides => r.accounts.toList.flatMap fun a => a.accountOverrides.map (.override a)

/-- The tasks of a compilation. -/
def tasks : List Task := Phase.all.flatMap fun p => .marker p :: r.duties p

/-- The statements that a task leaves, without blank ones. -/
def texts (k : Task) : List String :=
  ((leaves (r.perform k)).filterMap Item.statement?).filter fun s => !Text.isBlank s

/-- The diagnostics that a task leaves. -/
def reports (k : Task) : List Diagnostic :=
  ((leaves (r.perform k)).filterMap Item.skipped?).map Reference.diagnostic

variable {r}

/-- The phase of a kind has a row to write for each entity. -/
theorem duties_kind (kind : Kind) : r.duties kind.phase = (r.ofKind kind).map .row := by
  cases kind <;> rfl

theorem duties_relation (relation : Relation) :
    r.duties relation.phase = (r.visits relation).map .reference := by cases relation <;> rfl

/-- The loop of a kind's phase is the loop over its rows. -/
theorem items_of_rows {α : Type} {as : List α} {wrap : α → Entity}
    {emit : α → Except Failure Emission} {split : Emission → List String}
    (hemit : ∀ a, (wrap a).emit r.names = emit a) (hsplit : ∀ a, (wrap a).split = split) :
    gather (fun a => emitted split (emit a)) as = gather r.perform ((as.map wrap).map .row) := by
  rw [gather_map, gather_map]
  simp only [perform, hemit, hsplit]

/-- References never fail, so each leaves its item. -/
theorem items_of_visits (vs : List Visit) :
    gather r.perform (vs.map .reference) = .ok (vs.map r.visitItem) := by
  have hone : ∀ v ∈ vs, r.perform (.reference v) = .ok [r.visitItem v] := fun _ _ => rfl
  rw [gather_map, gather_eq_ok hone, ← List.map_eq_flatMap]

/-- A phase performs its tasks. -/
theorem items_eq_gather (p : Phase) : r.items p = gather r.perform (r.duties p) := by
  cases p using Phase.byContent with
  | rows kind => cases kind <;> exact items_of_rows (fun _ => rfl) fun _ => rfl
  | links relation => rw [items_relation, duties_relation, items_of_visits]
  | overrides =>
    show gather (fun a => gather (overrideItem r.names a) a.accountOverrides) r.accounts.toList
      = gather r.perform (r.accounts.toList.flatMap fun a => a.accountOverrides.map (.override a))
    rw [gather_flatMap]
    simp only [gather_map, perform]

/-- A run of phases is one loop over the tasks of all phases, each phase behind its marker. -/
theorem runPhases_eq_gather (ps : List Phase) :
    (r.runPhases ps).2 = gather r.perform (ps.flatMap fun p => .marker p :: r.duties p) := by
  induction ps with
  | nil => rfl
  | cons p ps ih =>
    -- The marker is a task that cannot fail; the duties of the phase come between it and the rest.
    rw [runPhases, List.flatMap_cons, List.cons_append, gather, gather_append, ← items_eq_gather]
    cases r.items p with
    | error failure => rfl
    | ok items =>
      show (r.runPhases ps).2.map _ = _
      rw [ih]
      cases gather r.perform (ps.flatMap fun p => .marker p :: r.duties p) <;> rfl

/-- A compilation performs its tasks one after another. -/
theorem compile_eq_perform :
    r.compile.result = match gather r.perform r.tasks with
      | .ok items => if r.emitsList then .error .listOfStatements else .ok (.ofItems items)
      | .error failure => .error (.compilation failure) := by
  rw [tasks, ← runPhases_eq_gather]
  rfl

/-- A compilation that succeeds has the statements and diagnostics of its tasks. -/
theorem compile_eq_tasks {c : Compilation} (h : r.compile.result = .ok c) :
    c = ⟨r.tasks.flatMap r.texts, r.tasks.flatMap r.reports⟩ := by
  rw [compile_eq_perform] at h
  split at h
  · next items hitems =>
    split at h
    · simp at h
    · obtain rfl := Except.ok.inj h
      rw [flatMap_leaves_of_gather hitems, Compilation.ofItems]
      -- Statements and diagnostics of all tasks are those of each task, in order.
      simp only [List.filterMap_flatMap, List.filter_flatMap, List.map_flatMap]
      rfl
  · simp at h

/-- The references that a compilation goes through, in its order. -/
theorem filterMap_visit?_tasks : r.tasks.filterMap Task.visit? = r.allVisits := by
  have hrows : ∀ es : List Entity, (es.map Task.row).filterMap Task.visit? = [] := by
    simp [List.filterMap_eq_nil_iff, Task.visit?]
  have hvisits : ∀ vs : List Visit, (vs.map Task.reference).filterMap Task.visit? = vs := by
    simp [List.filterMap_map, Task.visit?, Function.comp_def]
  have hoverrides : (r.accounts.toList.flatMap fun a =>
      a.accountOverrides.map (Task.override a)).filterMap Task.visit? = [] := by
    rw [List.filterMap_flatMap, List.flatMap_eq_nil_iff]
    simp [List.filterMap_eq_nil_iff, Task.visit?]
  -- Markers, rows and overrides are no visits, and each reference is its own.
  simp only [tasks, Phase.all, duties, List.flatMap_cons, List.flatMap_nil, List.filterMap_append,
    List.filterMap_cons, Task.visit?, hrows, hvisits, hoverrides, List.nil_append, List.append_nil]
  simp [allVisits, Relation.all]

end Registry

end AccessGraph
