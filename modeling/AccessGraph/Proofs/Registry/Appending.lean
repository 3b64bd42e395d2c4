import AccessGraph.Proofs.Registry.Interleaving

/-!
# Runs behind what is registered

`r ++ s` is the registry `r` with the entities of `s` behind its own.  Commands that refer to
nothing but what they have registered themselves do to `r ++ s` what they do to `s`, unless `r`
refuses what they register (`Registry.apply_behind`).  So a run of them keeps `r` in front as it
was: it does all that it does to `s`, or it stops at the first entity that is refused, behind what
was done before (`Registry.run_behind`).
-/

namespace AccessGraph

/-- Whether an error tells of an identifier or a name that is taken. -/
def Error.isDuplicate : Error → Bool
  | .duplicateId _ _ => true
  | .duplicateName _ _ => true
  | _ => false

/-- An entity of a kind that is told apart by names has a name. -/
private theorem Entity.exists_name {e : Entity} (h : e.kind ∈ Kind.named) :
    ∃ n, e.name? = some n := by
  cases e with
  | setting e => simp [kind, Kind.named] at h
  | permission e => exact ⟨_, rfl⟩
  | group e => exact ⟨_, rfl⟩
  | role e => exact ⟨_, rfl⟩
  | account e => simp [kind, Kind.named] at h

/-- The entities of a kind that commands register, each with all that the commands give it. -/
def produced (cs : List Command) (kind : Kind) : List Registration :=
  (kind.among (registered cs)).map (Registration.after kind cs)

private theorem registered_append (cs ds : List Command) :
    registered (cs ++ ds) = registered cs ++ registered ds :=
  List.filterMap_append

/-- What a list of commands registers is what the first of them does or the others do. -/
private theorem mem_registered_cons {c : Command} {cs : List Command} {x : Registration} :
    x ∈ registered (c :: cs) ↔ c.registered? = some x ∨ x ∈ registered cs := by
  simp only [registered, List.mem_filterMap, List.mem_cons, or_and_right, exists_or,
    exists_eq_left]

theorem Additions.append_assoc (x y z : Additions) : x ++ y ++ z = x ++ (y ++ z) := by
  simp only [append_def, List.append_assoc]

private theorem received_append (kind : Kind) (id : String) (cs ds : List Command) :
    received kind id (cs ++ ds) = received kind id cs ++ received kind id ds := by
  induction cs with
  | nil => exact (Additions.empty_append _).symm
  | cons c cs ih => rw [List.cons_append, received, received, ih, Additions.append_assoc]

namespace Registry

variable {r s t u : Registry} {c : Command} {cs : List Command} {kind : Kind} {id : String}
  {x : Registration}

/-! ## One registry behind another -/

/-- The registry with the entities of another one behind its own. -/
instance : Append Registry where
  append r s :=
    { names := r.names
      settings := ⟨r.settings.entries ++ s.settings.entries⟩
      permissions := ⟨r.permissions.entries ++ s.permissions.entries⟩
      groups := ⟨r.groups.entries ++ s.groups.entries⟩
      roles := ⟨r.roles.entries ++ s.roles.entries⟩
      accounts := ⟨r.accounts.entries ++ s.accounts.entries⟩ }

@[simp] theorem names_append (r s : Registry) : (r ++ s).names = r.names := rfl

/-- The registrations of an appended registry come last. -/
theorem registrations_append (r s : Registry) (kind : Kind) :
    (r ++ s).registrations kind = r.registrations kind ++ s.registrations kind := by
  cases kind <;> exact List.map_append

private theorem keys_append (r s : Registry) (kind : Kind) :
    (r ++ s).keys kind = r.keys kind ++ s.keys kind := by
  rw [keys, registrations_append, List.map_append, keys, keys]

theorem ofKind_append (r s : Registry) (kind : Kind) :
    (r ++ s).ofKind kind = r.ofKind kind ++ s.ofKind kind := by
  rw [ofKind_eq, registrations_append, List.map_append, ← ofKind_eq, ← ofKind_eq]

/-- Nothing is appended by an empty registry, whatever its schema names. -/
theorem append_empty (r : Registry) (names : Names) : r ++ empty names = r := by
  refine ext_registrations rfl fun kind => ?_
  rw [registrations_append, registrations_empty, List.append_nil]

/-- What is entered after appending is entered into what was appended. -/
theorem enter_append (r s : Registry) (id : String) (e : Entity) :
    (r ++ s).enter id e = r ++ s.enter id e := by
  refine ext_registrations (by simp only [names_enter, names_append]) fun kind => ?_
  rw [registrations_enter, registrations_append, registrations_append, registrations_enter,
    List.append_assoc]

/-- What is added to an entity behind goes past those in front, if none of them bears its
identifier. -/
theorem extend_append (hid : id ∉ r.keys kind) (x : Additions) :
    (r ++ s).extend kind id x = r ++ s.extend kind id x := by
  refine ext_registrations (by simp only [names_extend, names_append]) fun k => ?_
  -- The registrations in front are none of the entity's.
  have hfront : (r.registrations k).map
      (fun y => (y.1, if k = kind ∧ y.1 = id then y.2.extend x else y.2)) = r.registrations k := by
    refine (List.map_congr_left fun y hy => ?_).trans (List.map_id _)
    have hother : ¬ (k = kind ∧ y.1 = id) := by
      rintro ⟨rfl, rfl⟩
      exact hid (List.mem_map_of_mem hy)
    rw [if_neg hother]
    rfl
  rw [registrations_extend, registrations_append, registrations_append, registrations_extend,
    List.map_append, hfront]

/-! ## What a registry admits -/

/-- The identifier of an entity is free, and so is its name if entities of its kind are found by
it. -/
structure Admits (r : Registry) (x : Registration) : Prop where
  id : x.1 ∉ r.keys x.2.kind
  name : x.2.kind ∈ Kind.named → ∀ e ∈ r.ofKind x.2.kind, e.name? ≠ x.2.name?

/-- The error with which an entity is refused: its identifier is taken, or else its name. -/
inductive Refuses (r : Registry) (x : Registration) : Error → Prop
  | id {i : Identifier} : i.text = x.1 → x.1 ∈ r.keys x.2.kind →
    Refuses r x (.duplicateId x.2.kind i)
  | name {n : String} : x.1 ∉ r.keys x.2.kind → x.2.kind ∈ Kind.named → x.2.name? = some n →
    (∃ e ∈ r.ofKind x.2.kind, e.name? = some n) → Refuses r x (.duplicateName x.2.kind n)

/-- An entity is admitted behind two registries if each admits it. -/
private theorem admits_append : (r ++ s).Admits x ↔ r.Admits x ∧ s.Admits x := by
  constructor
  · -- What is free in both is free in each, and the other way round.
    intro h
    have hid := h.id
    rw [keys_append, List.mem_append, not_or] at hid
    have hname := h.name
    simp only [ofKind_append, List.mem_append] at hname
    exact ⟨⟨hid.1, fun hnamed e he => hname hnamed e (.inl he)⟩,
      ⟨hid.2, fun hnamed e he => hname hnamed e (.inr he)⟩⟩
  · rintro ⟨hr, hs⟩
    refine ⟨?_, fun hnamed e he => ?_⟩
    · rw [keys_append, List.mem_append, not_or]
      exact ⟨hr.id, hs.id⟩
    · rw [ofKind_append, List.mem_append] at he
      exact he.elim (hr.name hnamed e) (hs.name hnamed e)

/-- What is admitted is registered. -/
private theorem register_of_admits {i : Identifier} {e : Entity} (h : r.Admits (i.text, e)) :
    r.register i e = .ok (r.enter i.text e) :=
  register_eq_ok.mpr ⟨h.id, h.name, rfl⟩

/-- What was registered was admitted. -/
private theorem admits_of_register {i : Identifier} {e : Entity} (h : r.register i e = .ok t) :
    r.Admits (i.text, e) ∧ t = r.enter i.text e := by
  obtain ⟨hfree, hfresh, ht⟩ := register_eq_ok.mp h
  exact ⟨⟨hfree, hfresh⟩, ht⟩

/-- What is not admitted is refused for a reason that it has. -/
private theorem register_of_not_admits {i : Identifier} {e : Entity} (h : ¬ r.Admits (i.text, e)) :
    ∃ err, r.register i e = .error err ∧ r.Refuses (i.text, e) err := by
  cases hregister : r.register i e with
  | ok t => exact absurd (admits_of_register hregister).1 h
  | error err =>
    refine ⟨err, rfl, ?_⟩
    rcases register_eq_error.mp hregister with ⟨hid, rfl⟩ | ⟨hfree, hnamed, ⟨f, hf, hname⟩, rfl⟩
    · exact .id rfl hid
    · obtain ⟨n, hn⟩ := Entity.exists_name hnamed
      rw [hn]
      exact .name hfree hnamed hn ⟨f, hf, hname.trans hn⟩

/-! ## Single commands -/

/-- A command that registers an entity does nothing else. -/
private theorem apply_of_registered (h : c.registered? = some x) :
    ∃ i : Identifier, i.text = x.1 ∧ ∀ r : Registry, r.apply c = r.register i x.2 := by
  cases c with
  | define d =>
    rw [Command.registered?, Option.map_eq_some_iff] at h
    obtain ⟨y, hy, rfl⟩ := h
    -- A definition registers what it describes, and fails before if it describes nothing.
    cases hd : d.described with
    | error e => simp [hd, Except.toOption] at hy
    | ok z =>
      rw [hd] at hy
      obtain rfl : z = y := Option.some.inj hy
      refine ⟨z.1, rfl, fun r => ?_⟩
      rw [apply, define_eq, hd]
      rfl
  | script kind i sc =>
    obtain rfl := Option.some.inj h
    exact ⟨i, rfl, fun r => script_eq r kind i sc⟩
  | link l => simp [Command.registered?] at h

/-- A command that registers something is refused if that is not admitted. -/
private theorem apply_of_not_admits (hc : c.registered? = some x) (h : ¬ r.Admits x) :
    ∃ e, r.apply c = .error e ∧ r.Refuses x e := by
  obtain ⟨i, hi, happly⟩ := apply_of_registered hc
  rw [happly]
  have hx : (i.text, x.2) = x := Prod.ext hi rfl
  rw [← hx] at h ⊢
  exact register_of_not_admits h

/-- What is refused as invalid is not refused as a duplicate. -/
private theorem isDuplicate_of_orInvalid {α : Type} {subject : String} {x : Checked α} {e : Error}
    (h : x.orInvalid subject = .error e) : e.isDuplicate = false := by
  cases x with
  | ok a => simp [Checked.orInvalid] at h
  | bad is =>
    obtain rfl := Except.error.inj h
    rfl

/-- An identifier is refused with the error for it and no other. -/
private theorem error_of_nonEmptyIdentifier {v : Value} {e e' : Error}
    (h : nonEmptyIdentifier v e' = .error e) : e = e' := by
  unfold nonEmptyIdentifier at h
  split at h
  · split at h
    · exact (Except.error.inj h).symm
    · simp at h
  · exact (Except.error.inj h).symm

/-- A definition that is at fault in itself tells of nothing that is taken. -/
theorem isDuplicate_of_described {d : Definition} {e : Error} (h : d.described = .error e) :
    e.isDuplicate = false := by
  -- Only registering can find something taken; describing fails for other reasons.
  cases d with
  | setting key value =>
    rcases Except.bind_eq_error.mp h with h | ⟨i, -, h⟩
    · obtain rfl := error_of_nonEmptyIdentifier h
      rfl
    · split at h
      · simp at h
      · obtain rfl := Except.error.inj h
        rfl
  | permission i config =>
    rcases Except.bind_eq_error.mp h with h | ⟨c, -, h⟩
    · exact isDuplicate_of_orInvalid h
    · simp [pure, Except.pure] at h
  | group i config =>
    rcases Except.bind_eq_error.mp h with h | ⟨c, -, h⟩
    · exact isDuplicate_of_orInvalid h
    · simp [pure, Except.pure] at h
  | role i config =>
    rcases Except.bind_eq_error.mp h with h | ⟨c, -, h⟩
    · exact isDuplicate_of_orInvalid h
    · simp [pure, Except.pure] at h
  | account v config =>
    rcases Except.bind_eq_error.mp h with h | ⟨i, -, h⟩
    · obtain rfl := error_of_nonEmptyIdentifier h
      rfl
    · rcases Except.bind_eq_error.mp h with h | ⟨c, -, h⟩
      · exact isDuplicate_of_orInvalid h
      · simp [pure, Except.pure] at h

/-- Only a command that registers an entity can tell of what is taken. -/
private theorem exists_registered_of_isDuplicate {e : Error} (h : s.apply c = .error e)
    (he : e.isDuplicate = true) : ∃ x, c.registered? = some x := by
  cases c with
  | define d =>
    rw [apply, define_eq] at h
    rcases Except.bind_eq_error.mp h with h | ⟨x, hx, -⟩
    · exact absurd he (by simp [isDuplicate_of_described h])
    · exact ⟨(x.1.text, x.2), by rw [Command.registered?, hx]; rfl⟩
  | script kind i sc => exact ⟨_, rfl⟩
  | link l =>
    -- What is linked is not registered, so that it cannot be taken.
    exfalso
    rw [apply, link_eq] at h
    split at h
    · rw [Except.map_eq_error] at h
      cases l with
      | groupPermission id v => simp [Link.additions] at h
      | rolePermission id v => simp [Link.additions] at h
      | roleGroup id v terms =>
        rw [Link.additions, Except.map_eq_error] at h
        simp [isDuplicate_of_orInvalid h] at he
      | accountRole id v => simp [Link.additions] at h
      | override id isGrant v terms =>
        rw [Link.additions, Except.map_eq_error] at h
        simp [isDuplicate_of_orInvalid h] at he
    · obtain rfl := Except.error.inj h
      simp [Error.isDuplicate] at he

/-- An entity is refused where a command tells of what is taken. -/
private theorem exists_not_admits_of_isDuplicate {e : Error} (h : s.apply c = .error e)
    (he : e.isDuplicate = true) : ∃ x, c.registered? = some x ∧ ¬ s.Admits x := by
  obtain ⟨x, hx⟩ := exists_registered_of_isDuplicate h he
  refine ⟨x, hx, fun hadmits => ?_⟩
  obtain ⟨i, hi, happly⟩ := apply_of_registered hx
  have hxi : (i.text, x.2) = x := Prod.ext hi rfl
  rw [happly, register_of_admits (hxi.symm ▸ hadmits)] at h
  simp at h

/-- No identifier is taken in both registries by entities of one kind. -/
def Apart (r s : Registry) : Prop := ∀ kind, ∀ id ∈ s.keys kind, id ∉ r.keys kind

/-- A command does behind other entities what it does without them, if these admit what it
registers. -/
theorem apply_behind (hapart : r.Apart s) (h : s.apply c = .ok u)
    (hadmits : ∀ x, c.registered? = some x → r.Admits x) :
    (r ++ s).apply c = .ok (r ++ u) ∧ r.Apart u := by
  cases hc : c.registered? with
  | some x =>
    obtain ⟨i, hi, happly⟩ := apply_of_registered hc
    have hx : (i.text, x.2) = x := Prod.ext hi rfl
    rw [happly] at h ⊢
    obtain ⟨hs, rfl⟩ := admits_of_register h
    have hr : r.Admits (i.text, x.2) := hx.symm ▸ hadmits x hc
    -- The new identifier is apart from those in front, as it was admitted there.
    refine ⟨?_, fun kind id hid => ?_⟩
    · rw [register_of_admits (admits_append.mpr ⟨hr, hs⟩), enter_append]
    · rw [keys, registrations_enter, List.map_append, List.mem_append] at hid
      rcases hid with hid | hid
      · exact hapart kind id hid
      · obtain ⟨y, hy, hkind, rfl⟩ := Kind.mem_map_among.mp hid
        obtain rfl := List.mem_singleton.mp hy
        exact hkind ▸ hr.id
  -- Without a registration the command is a link, and its owner is one of those behind.
  | none =>
    cases c with
    | define d =>
      obtain ⟨x, hx, -⟩ := Except.bind_eq_ok.mp ((define_eq s d).symm.trans h)
      simp [Command.registered?, hx, Except.toOption] at hc
    | script kind i sc => simp [Command.registered?] at hc
    | link l =>
      rw [apply, link_eq] at h ⊢
      split at h
      · next howner =>
        obtain ⟨x, hx, rfl⟩ := Except.map_eq_ok.mp h
        rw [if_pos (by rw [keys_append]; exact List.mem_append_right _ howner), hx, Except.map,
          extend_append (hapart _ _ howner)]
        exact ⟨rfl, fun kind id hid => hapart kind id (by simpa using hid)⟩
      · simp at h

/-! ## Runs -/

/-- A refused command ends a run before anything is done. -/
private theorem run_of_not_admits (cs : List Command) (hx : c.registered? = some x)
    (h : ¬ r.Admits x) :
    ∃ e, r.run (c :: cs) = (r, some e) ∧ ∃ y ∈ registered (c :: cs), r.Refuses y e := by
  obtain ⟨e, he, hrefuses⟩ := apply_of_not_admits hx h
  exact ⟨e, by rw [run, he], x, mem_registered_cons.mpr (.inl hx), hrefuses⟩

/-- Commands that fail on nothing but what is taken, behind a registry that has no identifier in
common with what is there already.  Either the registry admits all that they register, and they do
what they do without it; or one of them is refused, and those before it have done what they do
without the registry. -/
theorem run_behind (hapart : r.Apart s)
    (hclean : ∀ e, (s.run cs).2 = some e → e.isDuplicate = true) :
    (∃ u, s.run cs = (u, none) ∧ (r ++ s).run cs = (r ++ u, none) ∧
      ∀ x ∈ registered cs, r.Admits x) ∨
    ∃ before after u e, cs = before ++ after ∧ s.run before = (u, none) ∧
      (r ++ s).run cs = (r ++ u, some e) ∧ (∃ x ∈ registered cs, (r ++ u).Refuses x e) ∧
      ((s.run cs).2 ≠ none ∨ ∃ x ∈ registered cs, ¬ r.Admits x) := by
  induction cs generalizing s with
  | nil => exact .inl ⟨s, rfl, rfl, fun x hx => absurd hx List.not_mem_nil⟩
  | cons c cs ih =>
    cases hs : s.apply c with
    | error e =>
      -- By itself the command is refused for what is taken, and so it is behind the registry.
      have hrun : s.run (c :: cs) = (s, some e) := by rw [run, hs]
      obtain ⟨x, hx, hnot⟩ := exists_not_admits_of_isDuplicate hs (hclean e (by rw [hrun]))
      obtain ⟨e', he', hrefuses⟩ :=
        run_of_not_admits (r := r ++ s) cs hx fun h => hnot (admits_append.mp h).2
      exact .inr ⟨[], c :: cs, s, e', rfl, rfl, he', hrefuses, .inl (by rw [hrun]; simp)⟩
    | ok v =>
      have hrun : s.run (c :: cs) = v.run cs := by rw [run, hs]
      -- By itself the command succeeds; behind the registry it may still be refused for what is
      -- there.
      by_cases hadmits : ∀ x, c.registered? = some x → r.Admits x
      · obtain ⟨happly, hapart'⟩ := apply_behind hapart hs hadmits
        have hrun' : (r ++ s).run (c :: cs) = (r ++ v).run cs := by rw [run, happly]
        rw [hrun, hrun']
        rcases ih hapart' (hrun ▸ hclean) with
          ⟨u, hu, happend, hall⟩ | ⟨before, after, u, e, rfl, hu, happend, ⟨x, hx, hrefuses⟩, hwhy⟩
        · refine .inl ⟨u, hu, happend, fun x hx => ?_⟩
          exact (mem_registered_cons.mp hx).elim (hadmits x) (hall x)
        · refine .inr ⟨c :: before, after, u, e, rfl, by rw [run, hs]; exact hu, happend,
            ⟨x, mem_registered_cons.mpr (.inr hx), hrefuses⟩, hwhy.imp_right ?_⟩
          rintro ⟨y, hy, hnot⟩
          exact ⟨y, mem_registered_cons.mpr (.inr hy), hnot⟩
      · obtain ⟨x, hx, hnot⟩ : ∃ x, c.registered? = some x ∧ ¬ r.Admits x := by
          simpa using hadmits
        obtain ⟨e, he, hrefuses⟩ :=
          run_of_not_admits (r := r ++ s) cs hx fun h => hnot (admits_append.mp h).1
        exact .inr ⟨[], c :: cs, s, e, rfl, rfl, he, hrefuses,
          .inr ⟨x, mem_registered_cons.mpr (.inl hx), hnot⟩⟩

/-! ## What a run produces -/

/-- A run that succeeds from the empty registry leaves what its commands produce. -/
theorem registrations_of_run {names : Names} (h : (empty names).run cs = (u, none)) (kind : Kind) :
    u.registrations kind = produced cs kind := by
  rw [registrations_run h, registrations_empty, List.nil_append, produced]

/-- A run that stops early has produced the first of the entities of the whole run, which may still
miss references. -/
theorem registrations_of_run_before {names : Names} {before : List Command}
    (h : (empty names).run before = (u, none)) (after : List Command) (kind : Kind) :
    ∃ first, first <+: produced (before ++ after) kind ∧
      (u.registrations kind).Forall₂ Registration.Kept first := by
  refine ⟨(kind.among (registered before)).map (Registration.after kind (before ++ after)), ?_, ?_⟩
  · rw [produced, registered_append, Kind.among, Kind.among, List.filter_append, List.map_append]
    exact List.prefix_append _ _
  · -- What comes later only adds to an entity.
    have hkept : ∀ x : Registration,
        (x.after kind before).Kept (x.after kind (before ++ after)) := by
      intro x
      refine ⟨rfl, ?_⟩
      rw [Registration.after, Registration.after, received_append, Entity.extend_append]
      exact Entity.later_extend _ _
    rw [registrations_of_run h, produced, List.forall₂_map_left_iff, List.forall₂_map_right_iff,
      List.forall₂_same]
    exact fun x _ => hkept x

end Registry

end AccessGraph
