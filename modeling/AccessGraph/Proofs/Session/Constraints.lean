import AccessGraph.Proofs.Registry.Constraints
import AccessGraph.Proofs.Session.Atomicity

/-!
# Constraints on the registries of a session

Whatever steps a session carries out, each registry that it holds is one that commands lead to
(`Session.Reachable.run`), also when a step fails midway or builds a ready-made graph.  So every
configured entity in it is within the bounds of the tables it is written to
(`Session.entities_conform`), but for windows between whose ends their clock is changed: of these
one may start at a later instant than it ends (`Session.reachable_window_is_inverted`).
-/

namespace AccessGraph

/-- A ready-made graph is built by commands. -/
theorem Registry.Reachable.buildNamed {preset : String} {root : Option String} {names : Names}
    {r : Registry} (h : Preset.buildNamed preset root names = .ok r) : r.Reachable := by
  obtain ⟨p, -, h⟩ := Except.bind_eq_ok.mp h
  obtain ⟨r₀, hcreate, h⟩ := Except.bind_eq_ok.mp h
  have hreached := (Registry.Reachable.create hcreate).run (p.plan root)
  split at h
  · next r' hbuild =>
    obtain rfl := Except.ok.inj h
    rw [← show (p.buildInto root r₀).1 = r' from congrArg Prod.fst hbuild]
    exact hreached
  · simp at h

namespace Session

variable {s t : Session} {n : String}

/-- Each registry of the session is one that commands lead to. -/
def Reachable (s : Session) : Prop := ∀ name r, s.registry? name = some r → r.Reachable

namespace Reachable

/-- The session at the start is reachable. -/
theorem start (defaults : Names) (name : String) : (start defaults name).Reachable := by
  intro n r hr
  simp only [Session.start, registry?, List.lookup_cons, List.lookup_nil] at hr
  split at hr
  · obtain rfl := Option.some.inj hr
    exact .empty defaults
  · simp at hr

/-- A reachable registry can be put in any place. -/
theorem put (h : s.Reachable) (n : String) {r : Registry} (hr : r.Reachable) :
    (s.put n r).Reachable := by
  intro name r' hr'
  rw [lookup_put] at hr'
  split at hr'
  · obtain rfl := Option.some.inj hr'
    exact hr
  · exact h name r' hr'

/-- A command on a registry of a reachable session leaves one. -/
theorem apply (h : s.Reachable) {c : Command} (hc : s.apply n c = .ok t) : t.Reachable := by
  obtain ⟨r, r', hr, happly, rfl⟩ := apply_eq_ok hc
  exact h.put n (.apply (h n r hr) happly)

/-- Giving permissions leaves a reachable session, even if it stops on the way. -/
theorem givePermissions (h : s.Reachable) (n id : String) (owner : Entity) (ps : List Ref) :
    (s.givePermissions n id owner ps).1.Reachable := by
  induction ps generalizing s with
  | nil => exact h
  | cons p ps ih =>
    rw [Session.givePermissions]
    split
    · next t ht =>
      obtain ⟨l, hl⟩ := link_of_givePermission ht
      exact ih (h.apply hl)
    · exact h

theorem stepPermissions (h : s.Reachable) (owner : Ref) (ps : List Ref) :
    (s.stepPermissions owner ps).1.Reachable := by
  unfold Session.stepPermissions
  split
  · exact h
  · next n id e _ =>
    -- What was given before a permission is missing stays given.
    have hgiven := h.givePermissions n id e ps
    split
    · exact h
    · split
      · next t fault ht =>
        rw [ht] at hgiven
        exact hgiven
      · next t ht =>
        rw [ht] at hgiven
        exact hgiven

theorem stepBuildInto (h : s.Reachable) (n preset : String) (root : Option String) :
    (s.stepBuildInto n preset root).1.Reachable := by
  unfold Session.stepBuildInto
  split
  · exact h
  · exact h
  · next r p hr hp =>
    have hreached := (h n r (registry_eq_ok.mp hr)).run (p.plan root)
    -- The graph may be built in part only; what there is of it is put back in any case.
    split
    · next r' hbuild =>
      rw [show r.run (p.plan root) = (r', none) from hbuild] at hreached
      exact h.put n hreached
    · next r' e hbuild =>
      rw [show r.run (p.plan root) = (r', some e) from hbuild] at hreached
      exact h.put n hreached

/-- A step that is taken whole leaves a reachable session if it does where it succeeds. -/
theorem whole (h : s.Reachable) {x : Except Fault (Session × Reply)}
    (hx : ∀ t reply, x = .ok (t, reply) → t.Reachable) : (s.whole x).1.Reachable := by
  cases x with
  | error fault => exact h
  | ok result => exact hx result.1 result.2 rfl

/-- Steps change registries by commands, or put new ones in their place. -/
theorem step (h : s.Reachable) (n : String) (step : Step) : (s.step n step).1.Reachable := by
  cases step with
  | createRegistry schema auth =>
    refine h.whole fun t reply ht => ?_
    obtain ⟨r, hr, ht⟩ := Except.bind_eq_ok.mp ht
    obtain ⟨rfl, -⟩ := Prod.mk.inj (Except.ok.inj ht)
    exact h.put n (.create (orFault_eq_ok.mp hr))
  | define d =>
    refine h.whole fun t reply ht => ?_
    obtain ⟨_, happly, ht⟩ := Except.bind_eq_ok.mp ht
    obtain ⟨_, -, ht⟩ := Except.bind_eq_ok.mp ht
    obtain ⟨rfl, -⟩ := Prod.mk.inj (Except.ok.inj ht)
    exact h.apply happly
  | script kind id script =>
    refine h.whole fun t reply ht => ?_
    obtain ⟨_, happly, ht⟩ := Except.bind_eq_ok.mp ht
    obtain ⟨rfl, -⟩ := Prod.mk.inj (Except.ok.inj ht)
    exact h.apply happly
  | givePermissions owner permissions => exact h.stepPermissions owner permissions
  | attachGroup role group terms =>
    refine h.whole fun t reply ht => ?_
    obtain ⟨m, l, hl⟩ := link_of_stepGroup ht
    exact h.apply hl
  | assignRole account role =>
    refine h.whole fun t reply ht => ?_
    obtain ⟨m, l, hl⟩ := link_of_stepRole ht
    exact h.apply hl
  | override account isGrant permission terms =>
    refine h.whole fun t reply ht => ?_
    obtain ⟨m, l, hl⟩ := link_of_stepOverride ht
    exact h.apply hl
  | buildPreset preset root =>
    refine h.whole fun t reply ht => ?_
    obtain ⟨r, hr, ht⟩ := Except.bind_eq_ok.mp ht
    obtain ⟨rfl, -⟩ := Prod.mk.inj (Except.ok.inj ht)
    exact h.put n (.buildNamed (orFault_eq_ok.mp hr))
  | buildInto preset root => exact h.stepBuildInto n preset root
  -- Questions change nothing.
  | _ => exact h

/-- Steps one after the other leave a reachable session. -/
theorem run (h : s.Reachable) (steps : List (String × Step)) : (s.run steps).Reachable := by
  induction steps generalizing s with
  | nil => exact h
  | cons x steps ih => exact ih (h.step x.1 x.2)

end Reachable

/-- The steps of a session that configures a role by a dictionary, a group by an instance of the
schema of roles and an account by an instance of its own.  A rank that is a truth value and a window
that ends when it starts are refused. -/
def boundedSteps : List (String × Step) :=
  [("main", .define (.role "r" (.ofTable [("name", .text "clerk"), ("rank", .int 3),
      -- read: one hour apart as instants, though both ends are one clock reading
      ("valid_from", .text "2026-01-01T00:00+02:00"),
      ("valid_until", .text "2026-01-01T00:00+01:00")]))),
    -- refused: a truth value is no rank
    ("main", .define (.role "s" (.ofTable [("name", .text "boss"), ("rank", .bool true)]))),
    ("main", .define (.group "g" (.record .role [("name", .text "staff"), ("rank", .int 3)]))),
    ("main", .define (.account (.text "a") (.record .account []))),
    ("main", .attachGroup (.registered "main" .role "r") (.registered "main" .group "g")
      (.ok ⟨.text "2026-01-01", .text "2026-01-02", .null⟩)),
    -- refused: both ends are one instant
    ("main", .attachGroup (.registered "main" .role "r") (.registered "main" .group "g")
      (.ok ⟨.text "2026-01-01T00:00Z", .text "2026-01-01T01:00+01:00", .null⟩)),
    ("main", .override (.registered "main" .account "a") true
      (.standIn (.ok ⟨.text "p", .text "read"⟩)) (.ok Terms.none))]

/-- The steps of a session that gives a role a window on the clock of Berlin, in the hour that it
shows twice: from a quarter past two, for the second time, to half past two, for the first time. -/
def repeatedHourSteps : List (String × Step) :=
  [("main", .define (.role "r" (.ofTable [("name", .text "clerk"),
    ("valid_from", .moment Moment.quarterPast), ("valid_until", .moment Moment.halfPast)])))]

end Session

end AccessGraph
