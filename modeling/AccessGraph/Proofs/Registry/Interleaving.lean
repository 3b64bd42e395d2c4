import AccessGraph.Compilation.Script
import AccessGraph.Proofs.Registry.Effects

/-!
# Interleaved runs

A command that succeeds does one of two things: it registers an entity, or it adds to one list of
one entity (`Registry.registrations_apply`).  What a whole run leaves is therefore made up of what
it registers in each kind and of what each entity receives in each list, in whatever order the run
does these things (`Registry.registrations_run`).

Two runs that agree on all that lead to the same registry, and so to the same outcome of everything
that is asked of it (`Registry.interleavings_agree`).
-/

namespace AccessGraph

namespace Command

/-- What a command registers if it succeeds. -/
def registered? : Command → Option Registration
  | .define d => d.described.toOption.map fun x => (x.1.text, x.2)
  | .script kind id s => some (id.text, .ofScript kind s)
  | .link _ => none

/-- What an entity receives from a command that succeeds. -/
def received (kind : Kind) (id : String) : Command → Additions
  | .link l => if l.owner = (kind, id) then l.additions.toOption.getD ∅ else ∅
  | _ => ∅

end Command

/-- What commands that succeed register, in their order. -/
def registered (cs : List Command) : List Registration := cs.filterMap Command.registered?

/-- What an entity receives from commands that succeed, list by list in their order. -/
def received (kind : Kind) (id : String) : List Command → Additions
  | [] => ∅
  | c :: cs => c.received kind id ++ received kind id cs

/-- A registration with what its entity receives from commands. -/
def Registration.after (kind : Kind) (cs : List Command) (x : Registration) : Registration :=
  (x.1, x.2.extend (received kind x.1 cs))

namespace Registry

variable {r t u : Registry} {c : Command} {cs ds : List Command}

/-- A run succeeds if its first command does and the run of the others does after it. -/
private theorem run_cons_eq_none :
    r.run (c :: cs) = (t, none) ↔ ∃ u, r.apply c = .ok u ∧ u.run cs = (t, none) := by
  rw [run]
  cases r.apply c <;> simp

/-- Commands fail with the error of the first that is refused, in the registry reached by then. -/
theorem run_eq_error {e : Error} :
    r.run cs = (t, some e) ↔
      ∃ before c after, cs = before ++ c :: after ∧ r.run before = (t, none) ∧
        t.apply c = .error e := by
  -- The induction is on the commands; the first of them fails here, or the others do.
  induction cs generalizing r with
  | nil => simp [run]
  | cons c cs ih =>
    rw [run]
    cases hc : r.apply c with
    | error e' =>
      constructor
      · intro h
        obtain ⟨rfl, he⟩ := Prod.mk.inj h
        obtain rfl := Option.some.inj he
        exact ⟨[], c, cs, rfl, rfl, hc⟩
      · -- A split behind the first command would have it succeed.
        intro h
        obtain ⟨before, d, after, hsplit, hbefore, hd⟩ := h
        cases before with
        | nil =>
          obtain ⟨rfl, rfl⟩ := List.cons.inj hsplit
          obtain rfl : r = t := congrArg Prod.fst hbefore
          obtain rfl := Except.error.inj (hc.symm.trans hd)
          rfl
        | cons b before =>
          obtain ⟨rfl, -⟩ := List.cons.inj hsplit
          simp [run, hc] at hbefore
    | ok u =>
      refine ih.trans ⟨fun h => ?_, fun h => ?_⟩
      · obtain ⟨before, d, after, rfl, hbefore, hd⟩ := h
        exact ⟨c :: before, d, after, rfl, by rw [run, hc]; exact hbefore, hd⟩
      · -- A split in front of the first command would have it fail.
        obtain ⟨before, d, after, hsplit, hbefore, hd⟩ := h
        cases before with
        | nil =>
          obtain ⟨rfl, rfl⟩ := List.cons.inj hsplit
          obtain rfl : r = t := congrArg Prod.fst hbefore
          simp [hc] at hd
        | cons b before =>
          obtain ⟨rfl, rfl⟩ := List.cons.inj hsplit
          rw [run, hc] at hbefore
          exact ⟨before, d, after, rfl, hbefore, hd⟩

/-- A command that registers something gives nothing to any entity. -/
private theorem received_of_registered {x : Registration} (h : c.registered? = some x) (kind : Kind)
    (id : String) : c.received kind id = ∅ := by
  cases c with
  | link l => simp [Command.registered?] at h
  | _ => rfl

/-- A command that succeeds enters what it registers, or extends the lists of one entity. -/
private theorem apply_eq_ok (h : r.apply c = .ok u) :
    (∃ id e, c.registered? = some (id, e) ∧ id ∉ r.keys e.kind ∧ u = r.enter id e) ∨
      ∃ kind id x, c.registered? = none ∧ id ∈ r.keys kind ∧ u = r.extend kind id x ∧
        ∀ k i, c.received k i = if k = kind ∧ i = id then x else ∅ := by
  -- A command registers one entity, or adds to one that is registered.
  cases c with
  | define d =>
    rw [apply, define_eq] at h
    obtain ⟨⟨id, e⟩, hd, h⟩ := Except.bind_eq_ok.mp h
    obtain ⟨hfree, -, rfl⟩ := register_eq_ok.mp h
    exact .inl ⟨id.text, e, by rw [Command.registered?, hd]; rfl, hfree, rfl⟩
  | script kind id s =>
    rw [apply, script_eq] at h
    obtain ⟨hfree, -, rfl⟩ := register_eq_ok.mp h
    exact .inl ⟨id.text, _, rfl, hfree, rfl⟩
  | link l =>
    rw [apply, link_eq] at h
    split at h
    · next howner =>
      obtain ⟨x, hx, rfl⟩ := Except.map_eq_ok.mp h
      refine .inr ⟨l.owner.1, l.owner.2, x, rfl, howner, rfl, fun k i => ?_⟩
      have hiff : l.owner = (k, i) ↔ k = l.owner.1 ∧ i = l.owner.2 := by
        rw [Prod.ext_iff, eq_comm, and_congr_right fun _ => eq_comm]
      simp only [Command.received, hiff, hx]
      rfl
    · simp at h

/-- One command: the entities that there are receive what it gives them, and what it registers
comes behind them. -/
theorem registrations_apply (h : r.apply c = .ok u) (kind : Kind) :
    u.registrations kind
      = (r.registrations kind).map (Registration.after kind [c])
        ++ kind.among c.registered?.toList := by
  rcases apply_eq_ok h with ⟨id, e, hc, -, rfl⟩ | ⟨k, id, x, hc, -, rfl, hreceived⟩
  · -- What registers something adds to nothing.
    have hself : (r.registrations kind).map (Registration.after kind [c])
        = r.registrations kind := by
      refine (List.map_congr_left fun y _ => ?_).trans (List.map_id _)
      simp [Registration.after, received, received_of_registered hc]
    rw [registrations_enter, hself, hc]
    rfl
  · rw [registrations_extend, hc]
    -- What adds to an entity registers nothing.
    refine (List.map_congr_left fun y _ => ?_).trans (List.append_nil _).symm
    by_cases hy : kind = k ∧ y.1 = id
    · simp [Registration.after, received, hreceived, hy]
    · simp [Registration.after, received, hreceived, hy]

/-- A run registers nothing under an identifier that is taken before it. -/
private theorem not_mem_keys_of_run (h : r.run cs = (t, none)) {kind : Kind} {x : Registration}
    (hx : x ∈ kind.among (registered cs)) : x.1 ∉ r.keys kind := by
  induction cs generalizing r with
  | nil => exact absurd hx List.not_mem_nil
  | cons c cs ih =>
    obtain ⟨u, hc, hrun⟩ := run_cons_eq_none.mp h
    rcases apply_eq_ok hc with ⟨id, e, hreg, hfree, rfl⟩ | ⟨k, id, y, hreg, -, rfl, -⟩
    · have hsplit : registered (c :: cs) = (id, e) :: registered cs := by
        rw [registered, List.filterMap_cons, hreg]
        rfl
      rw [hsplit, Kind.among, List.mem_filter] at hx
      obtain ⟨hx, hkind⟩ := hx
      -- The first command registers it now; a later one finds its identifier free then, and so now.
      rcases List.mem_cons.mp hx with rfl | hx
      · rwa [← beq_iff_eq.mp hkind]
      · have hlater := ih hrun (List.mem_filter.mpr ⟨hx, hkind⟩)
        rw [keys, registrations_enter, List.map_append, List.mem_append, not_or] at hlater
        exact hlater.1
    · have hsplit : registered (c :: cs) = registered cs := by
        rw [registered, List.filterMap_cons, hreg]
        rfl
      rw [hsplit] at hx
      simpa using ih hrun hx

/-- What a command gives goes to entities that are there, and not to those registered by the
command or after it. -/
private theorem received_of_run (h : r.run (c :: cs) = (t, none)) {kind : Kind} {x : Registration}
    (hx : x ∈ kind.among (registered (c :: cs))) : c.received kind x.1 = ∅ := by
  have hfree : x.1 ∉ r.keys kind := not_mem_keys_of_run h hx
  obtain ⟨u, hc, -⟩ := run_cons_eq_none.mp h
  rcases apply_eq_ok hc with ⟨id, e, hreg, -, -⟩ | ⟨k, id, y, -, hid, -, hreceived⟩
  · exact received_of_registered hreg kind x.1
  · have hother : ¬ (kind = k ∧ x.1 = id) := by
      rintro ⟨rfl, rfl⟩
      exact hfree hid
    rw [hreceived, if_neg hother]

/-- A run: every entity receives what the run gives it, and what the run registers comes behind
what there was. -/
theorem registrations_run (h : r.run cs = (t, none)) (kind : Kind) :
    t.registrations kind
      = (r.registrations kind ++ kind.among (registered cs)).map
        (Registration.after kind cs) := by
  induction cs generalizing r with
  | nil =>
    obtain rfl : r = t := congrArg Prod.fst h
    have hself : Registration.after kind [] = id := funext fun x => by
      simp [Registration.after, received]
    simp [registered, Kind.among, hself]
  | cons c cs ih =>
    obtain ⟨u, hc, hrun⟩ := run_cons_eq_none.mp h
    -- Old registrations get what the first command gives them, and then what the others do.
    have hold : ∀ x : Registration, (x.after kind [c]).after kind cs = x.after kind (c :: cs) := by
      intro x
      simp [Registration.after, received, Entity.extend_append]
    -- A new registration gets nothing from commands before it.
    have hnew : (kind.among (registered (c :: cs))).map (Registration.after kind cs)
        = (kind.among (registered (c :: cs))).map (Registration.after kind (c :: cs)) := by
      refine List.map_congr_left fun x hx => ?_
      rw [Registration.after, Registration.after, received, received_of_run h hx,
        Additions.empty_append]
    have hsplit : kind.among (registered (c :: cs))
        = kind.among c.registered?.toList ++ kind.among (registered cs) := by
      rw [Kind.among, Kind.among, Kind.among, ← List.filter_append, registered, registered,
        List.filterMap_cons]
      cases c.registered? <;> rfl
    calc t.registrations kind
        = (u.registrations kind ++ kind.among (registered cs)).map (Registration.after kind cs) :=
          ih hrun
      _ = (r.registrations kind).map (Registration.after kind (c :: cs))
            ++ (kind.among (registered (c :: cs))).map (Registration.after kind cs) := by
          rw [registrations_apply hc, List.append_assoc, ← hsplit, List.map_append, List.map_map]
          simp only [Function.comp_def, hold]
      _ = (r.registrations kind ++ kind.among (registered (c :: cs))).map
            (Registration.after kind (c :: cs)) := by
          rw [hnew, List.map_append]

/-- A run does not change the schema names. -/
theorem names_run (h : r.run cs = (t, none)) : t.names = r.names := by
  induction cs generalizing r with
  | nil =>
    obtain rfl : r = t := congrArg Prod.fst h
    rfl
  | cons c cs ih =>
    obtain ⟨u, hc, hrun⟩ := run_cons_eq_none.mp h
    exact (ih hrun).trans (names_apply hc)

/-- Two runs without failures, on fresh registries of the same schemas, that register the same
entities in the same order within each kind and give the same to each list of each entity in the
same order.  However they are interleaved, they end in the same registry, and so validation,
compilation and the script come out the same. -/
theorem interleavings_agree {names : Names} (hr : (empty names).run cs = (r, none))
    (ht : (empty names).run ds = (t, none))
    (hregistered : ∀ kind : Kind, kind.among (registered cs) = kind.among (registered ds))
    (hreceived : ∀ kind id, received kind id cs = received kind id ds) :
    r = t ∧ r.validate = t.validate ∧ r.compile = t.compile ∧ r.toScript = t.toScript := by
  -- What becomes of a registration depends on what it receives alone.
  have hafter : ∀ kind, Registration.after kind cs = Registration.after kind ds := fun kind =>
    funext fun x => by rw [Registration.after, Registration.after, hreceived]
  have heq : r = t := by
    refine ext_registrations ((names_run hr).trans (names_run ht).symm) fun kind => ?_
    rw [registrations_run hr, registrations_run ht, hregistered, hafter]
  -- One registry has one outcome of everything.
  subst heq
  exact ⟨rfl, rfl, rfl, rfl⟩

/-- A graph built entity by entity, each before what refers to it. -/
def targetsFirst : List Command :=
  [.define (.systemPermission "p" (.text "account") (.text "select") (.text "read") .null .null),
    .define (.group "g" (.ofTable [("name", .text "staff")])),
    .link (.groupPermission "g" (.text "p")),
    .define (.role "r" (.ofTable [("name", .text "clerk")])),
    .link (.roleGroup "r" (.text "g") .none),
    .link (.rolePermission "r" (.text "p"))]

/-- The same graph, with all references before what they refer to. -/
def ownersFirst : List Command :=
  [.define (.role "r" (.ofTable [("name", .text "clerk")])),
    .link (.rolePermission "r" (.text "p")),
    .link (.roleGroup "r" (.text "g") .none),
    .define (.group "g" (.ofTable [("name", .text "staff")])),
    .link (.groupPermission "g" (.text "p")),
    .define (.systemPermission "p" (.text "account") (.text "select") (.text "read") .null .null)]

/-- The targets can be registered before or after what refers to them, with the same compilation. -/
theorem interleavings_agree_sample :
    ∃ r t, (empty ⟨"access", "auth"⟩).run targetsFirst = (r, none) ∧
      (empty ⟨"access", "auth"⟩).run ownersFirst = (t, none) ∧ r.compile = t.compile := by
  have hr : ∃ r, (empty ⟨"access", "auth"⟩).run targetsFirst = (r, none) := ⟨_, rfl⟩
  have ht : ∃ t, (empty ⟨"access", "auth"⟩).run ownersFirst = (t, none) := ⟨_, rfl⟩
  obtain ⟨r, hr⟩ := hr
  obtain ⟨t, ht⟩ := ht
  have hregistered : ∀ kind : Kind,
      kind.among (registered targetsFirst) = kind.among (registered ownersFirst) := by
    intro kind
    cases kind <;> rfl
  have hreceived : ∀ kind id, received kind id targetsFirst = received kind id ownersFirst := by
    intro kind id
    -- Only the group and the role receive anything.
    by_cases hgroup : (Kind.group, "g") = (kind, id)
    · obtain ⟨rfl, rfl⟩ := Prod.mk.inj hgroup
      rfl
    · by_cases hrole : (Kind.role, "r") = (kind, id)
      · obtain ⟨rfl, rfl⟩ := Prod.mk.inj hrole
        rfl
      · simp [targetsFirst, ownersFirst, received, Command.received, Link.owner, hgroup, hrole]
  exact ⟨r, t, hr, ht, (interleavings_agree hr ht hregistered hreceived).2.2.1⟩

end Registry

end AccessGraph
