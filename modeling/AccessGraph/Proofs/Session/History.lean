import AccessGraph.Proofs.Registry.Growth
import AccessGraph.Session

/-!
# The registrations of a session

A session carries out steps one after another, whether they succeed or fail.  What a registry holds
after any number of steps is what was registered in it on the way, in that order, each entity with
the references that it was given (`Session.registry_run`).
-/

namespace AccessGraph

/-! ## Runs -/

namespace Step

/-- Whether a step builds the graph it is directed at by itself, in a new registry or in the one
that is there. -/
def builds : Step → Bool
  | .createRegistry _ _ => true
  | .buildPreset _ _ => true
  | .buildInto _ _ => true
  | _ => false

/-- What a step registers, by the reply to it. -/
def registration? : Step → Except Fault Reply → Option Registration
  | .define d, .ok (.entity e) => d.id?.map fun id => (id.text, e)
  | .script kind id s, .ok _ => some (id.text, .ofScript kind s)
  | _, _ => none

end Step

namespace Session

/-- The session after steps, each directed at the registry under a name; a step that fails does not
end the run. -/
def run (s : Session) : List (String × Step) → Session
  | [] => s
  | (name, step) :: steps => (s.step name step).1.run steps

/-- What steps register in the registry under a name, in the order of the steps. -/
def registrations (s : Session) (name : String) : List (String × Step) → List Registration
  | [] => []
  | (n, step) :: steps =>
    (if n = name then step.registration? (s.step n step).2 else none).toList
      ++ (s.step n step).1.registrations name steps

/-! ## One registry of a session -/

variable {s t u : Session} {name : String} {new more : List Registration}

/-- The registry under a name grows from one session to another. -/
def Grows (name : String) (s : Session) (new : List Registration) (t : Session) : Prop :=
  ∀ r, s.registry? name = some r → ∃ r', t.registry? name = some r' ∧ r.Grows new r'

theorem Grows.refl (s : Session) : Grows name s [] s := fun r hr => ⟨r, hr, .refl⟩

theorem Grows.trans (h : Grows name s new t) (h' : Grows name t more u) :
    Grows name s (new ++ more) u := by
  intro r hr
  obtain ⟨r₁, hr₁, hgrows⟩ := h r hr
  obtain ⟨r₂, hr₂, hgrows'⟩ := h' r₁ hr₁
  exact ⟨r₂, hr₂, hgrows.trans hgrows'⟩

/-- Leaving out what stands under one name leaves what is found under another. -/
private theorem lookup_filter_of_ne {n : String} (hne : name ≠ n) (es : List (String × Registry)) :
    (es.filter fun e => e.1 != n).lookup name = es.lookup name := by
  induction es with
  | nil => rfl
  | cons e es ih =>
    obtain ⟨key, r⟩ := e
    by_cases hkey : key = n
    · -- The entry that is left out is under another name than the one that is looked up.
      have hother : (name == key) = false := by simpa [hkey] using hne
      rw [List.filter_cons_of_neg (by simp [hkey]), ih, List.lookup_cons, hother]
    · rw [List.filter_cons_of_pos (by simp [hkey]), List.lookup_cons, List.lookup_cons, ih]

/-- The registry that was put is found under its name, and every other one as before. -/
theorem lookup_put (s : Session) (n name : String) (r : Registry) :
    registry? (s.put n r) name = if name = n then some r else s.registry? name := by
  by_cases hname : name = n
  · simp [put, registry?, hname]
  · have hother : (name == n) = false := by simpa using hname
    simp only [put, registry?, List.lookup_cons, hother, if_neg hname]
    exact lookup_filter_of_ne hname s.registries

/-- Putting a registry under another name leaves the one under a name as it is. -/
theorem grows_put_of_ne {n : String} (hn : n ≠ name) (r : Registry) :
    Grows name s [] (s.put n r) := by
  intro r' hr'
  exact ⟨r', by rw [lookup_put, if_neg hn.symm, hr'], .refl⟩

/-- A registry is there just if it is found. -/
theorem registry_eq_ok {r : Registry} :
    s.registry name = .ok r ↔ s.registry? name = some r := by
  unfold registry
  cases s.registry? name <;> simp

/-- A result of the library is one of a session. -/
theorem orFault_eq_ok {α : Type} {x : Except Error α} {a : α} : orFault x = .ok a ↔ x = .ok a := by
  cases x <;> simp [orFault]

/-- An accepted command changes the registry under its name. -/
theorem apply_eq_ok {n : String} {c : Command} (h : s.apply n c = .ok t) :
    ∃ r r', s.registry? n = some r ∧ r.apply c = .ok r' ∧ t = s.put n r' := by
  obtain ⟨r, hr, h⟩ := Except.bind_eq_ok.mp h
  obtain ⟨r', hr', h⟩ := Except.bind_eq_ok.mp h
  exact ⟨r, r', registry_eq_ok.mp hr, orFault_eq_ok.mp hr', (Except.ok.inj h).symm⟩

/-- What one registry grows by is what the registry under its name grows by. -/
theorem grows_put {r r' : Registry} (hr : s.registry? name = some r) (h : r.Grows new r') :
    Grows name s new (s.put name r') := by
  intro r₀ hr₀
  obtain rfl := Option.some.inj (hr.symm.trans hr₀)
  exact ⟨r', by rw [lookup_put, if_pos rfl], h⟩

/-! ## Steps that link

These steps find the owner first, then the target, and ask for the terms last; what they change is
one link. -/

/-- A change that is told to an entity comes of its command. -/
private theorem apply_of_change {n id : String} {kind : Kind} {c : Command}
    {tell : Entity → Option Reply}
    {reply : Reply} (h : s.change n kind id c tell = .ok (t, reply)) : s.apply n c = .ok t := by
  obtain ⟨_, happly, h⟩ := Except.bind_eq_ok.mp h
  obtain ⟨_, -, h⟩ := Except.bind_eq_ok.mp h
  obtain ⟨_, -, h⟩ := Except.bind_eq_ok.mp h
  obtain ⟨rfl, -⟩ := Prod.mk.inj (Except.ok.inj h)
  exact happly

/-- Giving a permission is a link. -/
theorem link_of_givePermission {n id : String} {owner : Entity} {permission : Ref}
    (h : s.givePermission n id owner permission = .ok t) : ∃ l, s.apply n (.link l) = .ok t := by
  obtain ⟨_, -, h⟩ := Except.bind_eq_ok.mp h
  obtain ⟨l, -, h⟩ := Except.bind_eq_ok.mp h
  exact ⟨l, h⟩

theorem link_of_stepGroup {role group : Ref} {terms : Checked Terms} {reply : Reply}
    (h : s.stepGroup role group terms = .ok (t, reply)) :
    ∃ n l, s.apply n (.link l) = .ok t := by
  obtain ⟨_, -, h⟩ := Except.bind_eq_ok.mp h
  obtain ⟨_, -, h⟩ := Except.bind_eq_ok.mp h
  obtain ⟨_, -, h⟩ := Except.bind_eq_ok.mp h
  obtain ⟨_, -, h⟩ := Except.bind_eq_ok.mp h
  exact ⟨_, _, apply_of_change h⟩

theorem link_of_stepRole {account role : Ref} {reply : Reply}
    (h : s.stepRole account role = .ok (t, reply)) : ∃ n l, s.apply n (.link l) = .ok t := by
  obtain ⟨_, -, h⟩ := Except.bind_eq_ok.mp h
  obtain ⟨_, -, h⟩ := Except.bind_eq_ok.mp h
  obtain ⟨_, -, h⟩ := Except.bind_eq_ok.mp h
  exact ⟨_, _, apply_of_change h⟩

theorem link_of_stepOverride {account permission : Ref} {isGrant : Bool} {terms : Checked Terms}
    {reply : Reply} (h : s.stepOverride account isGrant permission terms = .ok (t, reply)) :
    ∃ n l, s.apply n (.link l) = .ok t := by
  obtain ⟨_, -, h⟩ := Except.bind_eq_ok.mp h
  obtain ⟨_, -, h⟩ := Except.bind_eq_ok.mp h
  obtain ⟨_, -, h⟩ := Except.bind_eq_ok.mp h
  obtain ⟨_, -, h⟩ := Except.bind_eq_ok.mp h
  exact ⟨_, _, apply_of_change h⟩

/-! ## Steps that register nothing -/

/-- A link in any registry registers nothing. -/
theorem grows_of_link {n : String} {l : Link} (h : s.apply n (.link l) = .ok t) :
    Grows name s [] t := by
  obtain ⟨r, r', hr, hlink, rfl⟩ := apply_eq_ok h
  by_cases hn : n = name
  · subst hn
    exact grows_put hr (.rewire .refl (Registry.rewires_of_link hlink))
  · exact grows_put_of_ne hn r'

/-- Giving a permission registers nothing. -/
private theorem grows_of_givePermission {n id : String} {owner : Entity} {permission : Ref}
    (h : s.givePermission n id owner permission = .ok t) : Grows name s [] t := by
  obtain ⟨l, hl⟩ := link_of_givePermission h
  exact grows_of_link hl

/-- Permissions that are given before one of them is missing stay given, and are links. -/
private theorem grows_givePermissions (name : String) (s : Session) (n id : String) (owner : Entity)
    (ps : List Ref) : Grows name s [] (s.givePermissions n id owner ps).1 := by
  induction ps generalizing s with
  | nil => exact .refl s
  | cons p ps ih =>
    rw [givePermissions]
    cases hp : s.givePermission n id owner p with
    | ok t => exact (grows_of_givePermission hp).trans (ih t)
    | error fault => exact .refl s

/-- Giving permissions registers nothing, whether it succeeds or stops on the way. -/
theorem grows_stepPermissions (s : Session) (owner : Ref) (ps : List Ref) :
    Grows name s [] (s.stepPermissions owner ps).1 := by
  unfold stepPermissions
  cases s.find owner with
  | error fault => exact .refl s
  | ok found =>
    obtain ⟨n, id, e⟩ := found
    by_cases hnone : e.permissions?.isNone = true
    · simp only [hnone, ↓reduceIte]
      exact .refl s
    · have hgrows := grows_givePermissions name s n id e ps
      simp only [hnone, Bool.false_eq_true, ↓reduceIte]
      -- the loop ends in a fault or not; the session it leaves is the same
      split
      · next t fault hgiven =>
        rw [hgiven] at hgrows
        exact hgrows
      · next t hgiven =>
        rw [hgiven] at hgrows
        exact hgrows

/-- A step that changes nothing unless it succeeds registers what it registers when it does. -/
theorem grows_whole {x : Except Fault (Session × Reply)}
    (h : ∀ t reply, x = .ok (t, reply) → Grows name s [] t) : Grows name s [] (s.whole x).1 := by
  cases x with
  | error fault => exact .refl s
  | ok result => exact h result.1 result.2 rfl

/-- Attaching a group registers nothing. -/
theorem grows_stepGroup {role group : Ref} {terms : Checked Terms} {reply : Reply}
    (h : s.stepGroup role group terms = .ok (t, reply)) : Grows name s [] t := by
  obtain ⟨m, l, hl⟩ := link_of_stepGroup h
  exact grows_of_link hl

theorem grows_stepRole {account role : Ref} {reply : Reply}
    (h : s.stepRole account role = .ok (t, reply)) : Grows name s [] t := by
  obtain ⟨m, l, hl⟩ := link_of_stepRole h
  exact grows_of_link hl

theorem grows_stepOverride {account permission : Ref} {isGrant : Bool} {terms : Checked Terms}
    {reply : Reply} (h : s.stepOverride account isGrant permission terms = .ok (t, reply)) :
    Grows name s [] t := by
  obtain ⟨m, l, hl⟩ := link_of_stepOverride h
  exact grows_of_link hl

/-- Building a graph under another name leaves the registry under a name as it is. -/
theorem grows_stepBuildInto {n : String} (hn : n ≠ name) (s : Session) (preset : String)
    (root : Option String) : Grows name s [] (s.stepBuildInto n preset root).1 := by
  unfold stepBuildInto
  cases s.registry n with
  | error fault => exact .refl s
  | ok r =>
    cases Preset.ofName preset with
    | error e => exact .refl s
    | ok p =>
      -- The graph may be built in part only; what there is of it is put back in any case.
      simp only
      split
      · exact grows_put_of_ne hn _
      · exact grows_put_of_ne hn _

/-! ## Steps that register an entity -/

/-- A reference to what is registered leads there. -/
theorem find_registered {n : String} {r : Registry} (hr : s.registry n = .ok r) {kind : Kind}
    {id : Identifier} {e : Entity} (he : r.entity kind id = .ok e) :
    s.find (.registered n kind id) = .ok (n, id.text, e) := by
  have hfault : orFault (r.entity kind id) = .ok e := orFault_eq_ok.mpr he
  exact Except.bind_eq_ok.mpr ⟨r, hr, Except.bind_eq_ok.mpr ⟨e, hfault, rfl⟩⟩

/-- What a definition registers is what its reply shows. -/
private theorem stepDefine_eq_ok {n : String} {d : Definition} {reply : Reply}
    (h : s.stepDefine n d = .ok (t, reply)) :
    ∃ r r' x, s.registry? n = some r ∧ r.Adds x r' ∧ t = s.put n r' ∧
      Step.registration? (.define d) (.ok reply) = some x := by
  obtain ⟨_, happly, h⟩ := Except.bind_eq_ok.mp h
  obtain ⟨_, hfind, h⟩ := Except.bind_eq_ok.mp h
  obtain ⟨rfl, rfl⟩ := Prod.mk.inj (Except.ok.inj h)
  obtain ⟨r, r', hr, hdefine, rfl⟩ := apply_eq_ok happly
  obtain ⟨id, e, hid, hkind, -, hadds⟩ := Registry.adds_of_define hdefine
  have hregistry : (s.put n r').registry n = .ok r' :=
    registry_eq_ok.mpr (by rw [lookup_put, if_pos rfl])
  -- The reply is looked up under the identifier of the definition, where the new entity stands.
  have hentity : r'.entity d.kind (d.id?.getD "") = .ok e := by
    rw [← hkind, hid]
    exact hadds.entity rfl
  obtain rfl := Except.ok.inj ((find_registered hregistry hentity).symm.trans hfind)
  exact ⟨r, r', (id.text, e), hr, hadds, rfl, by rw [Step.registration?, hid]; rfl⟩

/-- What a step registers by putting a registry back with an entity added, unless it fails. -/
private theorem grows_registering {n : String} {step : Step} {x : Except Fault (Session × Reply)}
    (hok : ∀ t reply, x = .ok (t, reply) →
      ∃ r r' y, s.registry? n = some r ∧ r.Adds y r' ∧ t = s.put n r' ∧
        step.registration? (.ok reply) = some y)
    (herror : ∀ fault, step.registration? (.error fault) = none) :
    Grows name s (if n = name then step.registration? (s.whole x).2 else none).toList
      (s.whole x).1 := by
  cases x with
  | error fault =>
    -- A step that fails leaves the session as it was and registers nothing.
    have hnone : (if n = name then step.registration? (.error fault) else none) = none := by
      rw [herror, ite_self]
    simp only [whole, hnone]
    exact .refl s
  | ok result =>
    obtain ⟨t, reply⟩ := result
    obtain ⟨r, r', y, hr, hadds, rfl, hregisters⟩ := hok t reply rfl
    by_cases hn : n = name
    · subst hn
      simp only [whole, ↓reduceIte, hregisters]
      exact grows_put hr (.add .refl hadds)
    · simp only [whole, hn, ↓reduceIte]
      exact grows_put_of_ne hn r'

/-! ## Runs of steps -/

/-- What a step that registers nothing leaves of the registries. -/
private theorem grows_step_of_none {n : String} {step : Step}
    (hnone : ∀ reply, step.registration? reply = none)
    (h : Grows name s [] (s.step n step).1) :
    Grows name s (if n = name then step.registration? (s.step n step).2 else none).toList
      (s.step n step).1 := by
  rwa [hnone, ite_self]

/-- A step changes the registry under a name by what it registers there, unless it is directed at
this name and builds a graph by itself. -/
theorem grows_step (s : Session) {n : String} (step : Step)
    (h : n = name → step.builds = false) :
    Grows name s (if n = name then step.registration? (s.step n step).2 else none).toList
      (s.step n step).1 := by
  cases step with
  | define d => exact grows_registering (fun t reply => stepDefine_eq_ok) fun _ => rfl
  | script kind id script =>
    refine grows_registering (fun t reply ht => ?_) fun _ => rfl
    obtain ⟨_, happly, ht⟩ := Except.bind_eq_ok.mp ht
    obtain ⟨rfl, rfl⟩ := Prod.mk.inj (Except.ok.inj ht)
    obtain ⟨r, r', hr, hscript, rfl⟩ := apply_eq_ok happly
    exact ⟨r, r', _, hr, Registry.adds_of_script hscript, rfl, rfl⟩
  -- Links change the registry of their owner, whatever registry the step is directed at.
  | givePermissions owner permissions =>
    exact grows_step_of_none (fun _ => rfl) (grows_stepPermissions s owner permissions)
  | attachGroup role group terms =>
    exact grows_step_of_none (fun _ => rfl) (grows_whole fun t reply => grows_stepGroup)
  | assignRole account role =>
    exact grows_step_of_none (fun _ => rfl) (grows_whole fun t reply => grows_stepRole)
  | override account isGrant permission terms =>
    exact grows_step_of_none (fun _ => rfl) (grows_whole fun t reply => grows_stepOverride)
  -- Building a graph is only allowed for elsewhere.
  | createRegistry schema auth =>
    have hn : n ≠ name := fun hn => Bool.noConfusion (h hn)
    refine grows_step_of_none (fun _ => rfl) (grows_whole fun t reply ht => ?_)
    obtain ⟨r, -, ht⟩ := Except.bind_eq_ok.mp ht
    obtain ⟨rfl, -⟩ := Prod.mk.inj (Except.ok.inj ht)
    exact grows_put_of_ne hn r
  | buildPreset preset root =>
    have hn : n ≠ name := fun hn => Bool.noConfusion (h hn)
    refine grows_step_of_none (fun _ => rfl) (grows_whole fun t reply ht => ?_)
    obtain ⟨r, -, ht⟩ := Except.bind_eq_ok.mp ht
    obtain ⟨rfl, -⟩ := Prod.mk.inj (Except.ok.inj ht)
    exact grows_put_of_ne hn r
  | buildInto preset root =>
    have hn : n ≠ name := fun hn => Bool.noConfusion (h hn)
    exact grows_step_of_none (fun _ => rfl) (grows_stepBuildInto hn s preset root)
  -- Questions change nothing.
  | _ => exact grows_step_of_none (fun _ => rfl) (.refl s)

/-- A run changes the registry under a name by what the steps register there. -/
theorem grows_run (s : Session) (steps : List (String × Step))
    (h : ∀ x ∈ steps, x.1 = name → x.2.builds = false) :
    Grows name s (s.registrations name steps) (s.run steps) := by
  -- The steps after the first go on from the session that the first leaves.
  induction steps generalizing s with
  | nil => exact .refl s
  | cons x steps ih =>
    obtain ⟨n, step⟩ := x
    obtain ⟨hstep, hsteps⟩ := List.forall_mem_cons.mp h
    exact (grows_step s step hstep).trans (ih _ hsteps)

/-- After any steps, failing ones included, a registry that was opened without entities holds what
was registered in it, kind by kind in the order of registration.  Identifiers and names are
distinct, and each entity is found under the identifier it was registered with, unchanged except for
the references it was given; nothing is found under any other.  Further steps only continue
references: what is registered stays in its place. -/
theorem registry_run {names : Names} (hs : s.registry? name = some (.empty names))
    (steps more : List (String × Step))
    (h : ∀ x ∈ steps ++ more, x.1 = name → x.2.builds = false) :
    ∃ r, registry? (s.run steps) name = some r ∧ r.Distinct ∧
      (∀ kind, r.keys kind = (kind.among (s.registrations name steps)).map Prod.fst ∧
        (kind.among (s.registrations name steps)).Forall₂ (fun x e => x.2.Later e)
          (r.ofKind kind)) ∧
      (∀ x ∈ s.registrations name steps, ∃ e,
        r.entity x.2.kind x.1 = .ok e ∧ x.2.Later e) ∧
      (∀ kind id, r.entity kind id = .error (.notFound kind id) ↔
        ∀ x ∈ s.registrations name steps, x.2.kind = kind → x.1 ≠ id.text) ∧
      ∃ t, registry? ((s.run steps).run more) name = some t ∧
        (∀ kind, r.keys kind <+: t.keys kind) ∧
        ∀ kind id e, r.entity kind id = .ok e → ∃ f, t.entity kind id = .ok f ∧ e.Later f := by
  have hsteps : ∀ x ∈ steps, x.1 = name → x.2.builds = false := fun x hx =>
    h x (List.mem_append_left more hx)
  have hmore : ∀ x ∈ more, x.1 = name → x.2.builds = false := fun x hx =>
    h x (List.mem_append_right steps hx)
  obtain ⟨r, hr, hgrows⟩ := grows_run s steps hsteps _ hs
  obtain ⟨t, ht, hlater⟩ := grows_run (s.run steps) more hmore r hr
  have hdistinct : r.Distinct := hgrows.distinct (Registry.distinct_empty names)
  have hkeys : ∀ kind, r.keys kind
      = (kind.among (s.registrations name steps)).map Prod.fst := by
    intro kind
    rw [hgrows.keys, Registry.keys_empty, List.nil_append]
  refine ⟨r, hr, hdistinct, fun kind => ⟨hkeys kind, ?_⟩,
    fun x hx => hgrows.entity_of_mem hdistinct hx rfl, fun kind id => ?_, t, ht,
    fun kind => ⟨_, (hlater.keys kind).symm⟩, fun kind id e he => hlater.entity he⟩
  · -- Nothing was registered before, so that the new registrations are all there are.
    have hkept := hgrows.registrations kind
    rw [Registry.registrations_empty, List.nil_append] at hkept
    rw [Registry.ofKind_eq, List.forall₂_map_right_iff]
    exact hkept.imp fun _ _ hxy => hxy.2
  · rw [Registry.entity_eq_error_iff, hkeys, Kind.mem_map_among]
    constructor
    · exact fun hnot x hx hkind heq => hnot ⟨x, hx, hkind, heq⟩
    · exact fun hne ⟨x, hx, hkind, heq⟩ => hne x hx hkind heq

/-- The steps of a session that registers a group and a scripted permission.  The second definition
is refused, and the last step links one permission before it finds that the other is missing. -/
def sampleSteps : List (String × Step) :=
  [("main", .define (.group "g" (.ofTable [("name", .text "staff")]))),
    ("main", .define (.group "g" (.ofTable [("name", .text "others")]))),
    ("main", .script .permission "p" ⟨"any", "read", .failure "no", "", [], [], []⟩),
    ("main", .validate),
    ("main", .compile),
    ("main", .givePermissions (.registered "main" .group "g")
      [.registered "main" .permission "p", .registered "main" .permission "q"])]

/-- After a few steps, one of which fails, the registry holds a group and a permission, and not the
other permission. -/
theorem registry_run_sample :
    ∃ r, registry? ((start ⟨"access", "auth"⟩ "main").run sampleSteps) "main" = some r ∧
      r.Distinct ∧ r.keys .group = ["g"] ∧ r.keys .permission = ["p"] ∧
      (∃ e, r.entity .group "g" = .ok e ∧ e.name? = some "staff") ∧
      r.entity .permission "q" = .error (.notFound .permission "q") := by
  have hstart : registry? (start ⟨"access", "auth"⟩ "main") "main"
      = some (.empty ⟨"access", "auth"⟩) := rfl
  obtain ⟨r, hr, hdistinct, hkinds, hfound, hmissing, -⟩ :=
    registry_run hstart sampleSteps [] (by decide +kernel)
  have hgroups : r.keys .group = ["g"] := (hkinds .group).1.trans (by decide +kernel)
  have hpermissions : r.keys .permission = ["p"] :=
    (hkinds .permission).1.trans (by decide +kernel)
  have hnone : r.entity .permission "q" = .error (.notFound .permission "q") :=
    (hmissing .permission "q").mpr (by decide +kernel)
  -- The group is what was registered first.
  have hfirst :
      0 < ((start ⟨"access", "auth"⟩ "main").registrations "main" sampleSteps).length := by
    decide +kernel
  obtain ⟨e, he, hlater⟩ := hfound _ (List.getElem_mem hfirst)
  exact ⟨r, hr, hdistinct, hgroups, hpermissions, ⟨e, he, hlater.name?_eq⟩, hnone⟩

end Session

end AccessGraph
