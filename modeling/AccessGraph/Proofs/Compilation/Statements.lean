import AccessGraph.Proofs.Compilation.Sources
import AccessGraph.Proofs.Entity.Keys

/-!
# The statements of a reachable registry

In a reachable registry whose compilation succeeds everything emits (`Registry.emits_of_compile`),
so that its statements are those of its sources.  Each of them is the comment of a marker or one
statement of SQL (`Registry.text_of_mem_sources`).
-/

namespace AccessGraph

open Sql (IsComment IsSpaced Row)

/-! ## Success of single steps -/

/-- Where steps were gathered, each of them gave something. -/
private theorem gather_ok {ε α β : Type} {f : α → Except ε (List β)} {as : List α} {bs : List β}
    (h : gather f as = .ok bs) : ∀ a ∈ as, ∃ cs, f a = .ok cs := by
  induction as generalizing bs with
  | nil => simp
  | cons a as ih =>
    rw [gather] at h
    split at h
    · simp at h
    · next cs hcs =>
      obtain ⟨ds, hds, -⟩ := Except.map_eq_ok.mp h
      exact List.forall_mem_cons.mpr ⟨⟨cs, hcs⟩, ih hds⟩

namespace Registry

variable {r : Registry}

/-- Where a run of phases gave items, each phase did. -/
theorem runPhases_ok {ps : List Phase} {items : List Item} (h : (r.runPhases ps).2 = .ok items) :
    ∀ p ∈ ps, ∃ items, r.items p = .ok items := by
  induction ps generalizing items with
  | nil => simp
  | cons p ps ih =>
    rw [runPhases] at h
    split at h
    · simp at h
    · next here hhere =>
      obtain ⟨more, hmore, -⟩ := Except.map_eq_ok.mp h
      exact List.forall_mem_cons.mpr ⟨⟨here, hhere⟩, ih hmore⟩

/-- Where a compilation gave statements, each phase gave items. -/
private theorem items_ok_of_compile {c : Compilation} (h : r.compile.result = .ok c) (p : Phase) :
    ∃ items, r.items p = .ok items := by
  have hrun : ∃ items, (r.runPhases Phase.all).2 = .ok items := by
    simp only [compile] at h
    split at h
    · next items hitems => exact ⟨items, hitems⟩
    · simp at h
  obtain ⟨items, hitems⟩ := hrun
  exact runPhases_ok hitems p (Phase.mem_all p)

/-- Entities that are gone through with success emit. -/
private theorem emit_ok_of_gather {α : Type} {as : List α} {wrap : α → Entity}
    {emit : α → Except Failure Emission} {split : Emission → List String} {items : List Item}
    (h : gather (fun a => emitted split (emit a)) as = .ok items)
    (hemit : ∀ a, (wrap a).emit r.names = emit a) {e : Entity} (he : e ∈ as.map wrap) :
    ∃ emission, e.emit r.names = .ok emission := by
  obtain ⟨a, ha, rfl⟩ := List.mem_map.mp he
  obtain ⟨_, hstep⟩ := gather_ok h a ha
  obtain ⟨emission, hok, -⟩ := Except.map_eq_ok.mp hstep
  exact ⟨emission, (hemit a).trans hok⟩

/-- Where the phase of a kind gave items, each entity of the kind was written. -/
private theorem emit_ok_of_items {kind : Kind} {items : List Item}
    (h : r.items kind.phase = .ok items) {e : Entity} (he : e ∈ r.ofKind kind) :
    ∃ emission, e.emit r.names = .ok emission := by
  cases kind with
  | setting => exact emit_ok_of_gather h (fun _ => rfl) he
  | permission => exact emit_ok_of_gather h (fun _ => rfl) he
  | group => exact emit_ok_of_gather h (fun _ => rfl) he
  | role => exact emit_ok_of_gather h (fun _ => rfl) he
  | account => exact emit_ok_of_gather h (fun _ => rfl) he

/-- The entities of a kind are among all. -/
theorem mem_entities {kind : Kind} {e : Entity} (he : e ∈ r.ofKind kind) : e ∈ r.entities :=
  List.mem_flatMap.mpr ⟨kind, by cases kind <;> decide, he⟩

/-- The entities of a kind are of that kind. -/
theorem kind_of_mem {kind : Kind} {e : Entity} (he : e ∈ r.ofKind kind) : e.kind = kind := by
  cases kind with
  | setting => obtain ⟨_, _, rfl⟩ := List.mem_map.mp he; rfl
  | permission => obtain ⟨_, _, rfl⟩ := List.mem_map.mp he; rfl
  | group => obtain ⟨_, _, rfl⟩ := List.mem_map.mp he; rfl
  | role => obtain ⟨_, _, rfl⟩ := List.mem_map.mp he; rfl
  | account => obtain ⟨_, _, rfl⟩ := List.mem_map.mp he; rfl

/-- What is registered by definitions emits one statement, an account a list of them. -/
theorem emission_of_sound {e : Entity} (he : e.Sound) {names : Names} {emission : Emission}
    (h : e.emit names = .ok emission) :
    (e.kind ≠ .account ∧ ∃ t, emission = .statement t)
      ∨ (e.kind = .account ∧ ∃ ts, emission = .statements ts) := by
  -- Only accounts emit a list; it does not matter which row the others emit.
  cases he with
  | setting s _ => exact .inl ⟨by simp [Entity.kind], _, (Except.ok.inj h).symm⟩
  | permission p _ =>
    obtain ⟨row, -, rfl⟩ := spreadRow_eq_ok.mp h
    exact .inl ⟨by simp [Entity.kind], row.spread, rfl⟩
  | group g _ =>
    obtain ⟨row, -, rfl⟩ := spreadRow_eq_ok.mp h
    exact .inl ⟨by simp [Entity.kind], row.spread, rfl⟩
  | role o _ =>
    obtain ⟨row, -, rfl⟩ := spreadRow_eq_ok.mp h
    exact .inl ⟨by simp [Entity.kind], row.spread, rfl⟩
  | account a _ =>
    obtain ⟨row, -, rfl⟩ := Account.emit_eq_ok.mp h
    exact .inr ⟨rfl, _, rfl⟩

/-- Whatever is registered by definitions emits, if the compilation succeeds. -/
theorem emits_of_compile (hr : r.Sound) {c : Compilation} (h : r.compile.result = .ok c) :
    r.Emits := by
  have hemit : ∀ kind, ∀ e ∈ r.ofKind kind, ∃ emission, e.emit r.names = .ok emission := by
    intro kind e he
    obtain ⟨items, hitems⟩ := items_ok_of_compile h kind.phase
    exact emit_ok_of_items hitems he
  refine ⟨?_, ?_, ?_⟩
  -- An entity of a reachable registry emits what its kind has to emit.
  · intro kind hkind e he
    obtain ⟨emission, hok⟩ := hemit kind e he
    rcases emission_of_sound (hr.entity (mem_entities he)) hok with ⟨-, t, rfl⟩ | ⟨haccount, -⟩
    · exact ⟨t, hok⟩
    · exact absurd ((kind_of_mem he).symm.trans haccount) hkind
  · intro e he
    obtain ⟨emission, hok⟩ := hemit .account e he
    rcases emission_of_sound (hr.entity (mem_entities he)) hok with ⟨hne, -⟩ | ⟨-, ts, rfl⟩
    · exact absurd (kind_of_mem he) hne
    · exact ⟨ts, hok⟩
  -- An override is gone through inside the loop over its account.
  · intro a ha o ho
    obtain ⟨items, hitems⟩ := items_ok_of_compile h .overrides
    obtain ⟨_, hstep⟩ := gather_ok hitems a ha
    obtain ⟨_, hone⟩ := gather_ok hstep o ho
    obtain ⟨emission, hspread, -⟩ := Except.map_eq_ok.mp hone
    obtain ⟨row, hrow, -⟩ := spreadRow_eq_ok.mp hspread
    exact ⟨row, hrow⟩

end Registry

/-! ## Rows of links -/

/-- A row of two references, with or without a time stamp. -/
private theorem Relation.row_shows {names : Names} (hn : isSchemaName names.schema = true)
    (relation : Relation) {owner target : NaturalKey} (howner : owner.WellNamed)
    (htarget : target.WellNamed) :
    (relation.row names owner.subquery target.subquery).Shows (names.table relation.table)
      ([(column relation.ownerKind, some owner.content),
        (column relation.targetKind, some target.content)]
        ++ relation.stamp?.toList.map fun c => (c, some .now)) := by
  refine ⟨[(column relation.ownerKind, .lookup owner.table owner.column owner.value),
    (column relation.targetKind, .lookup target.table target.column target.value)]
    ++ relation.stamp?.toList.map fun c => (c, .now), ?_, ?_, by simp, ?_⟩
  · cases relation <;> simp [row, stamp?, Row.ofExprs, NaturalKey.subquery]
  · exact isName_qualified hn (by cases relation <;> decide)
  · -- The two look-ups come first in every relation, and some add the current time.
    apply Cells.cons (by cases relation <;> decide) (NaturalKey.denotes howner _)
    apply Cells.cons (by cases relation <;> decide) (NaturalKey.denotes htarget _)
    cases relation with
    | groupPermission => exact .cons (by decide) (denotes_now "added_at") .nil
    | rolePermission => exact .nil
    | roleGroup => exact .cons (by decide) (denotes_now "assigned_at") .nil
    | accountRole => exact .cons (by decide) (denotes_now "assigned_at") .nil

/-- A link as a source: an owner with a reference of its, and the entity referred to. -/
structure IsLink (r : Registry) (v : Visit) (e : Entity) : Prop where
  owner : v.owner ∈ r.ofKind v.relation.ownerKind
  held : v.target ∈ v.owner.targets v.relation
  target : e ∈ r.ofKind v.relation.targetKind
  resolved : v.target? r = some e

namespace Registry

variable {r : Registry}

/-- What a look-up finds is among the entities of the kind. -/
private theorem mem_ofKind_of_entity {kind : Kind} {id : String} {e : Entity}
    (h : (r.entity kind id).toOption = some e) : e ∈ r.ofKind kind := by
  -- What a store returns for an identifier is one of its entities.
  have hmem : ∀ {α : Type} {s : Store α} {wrap : α → Entity},
      (s.get? id).map wrap = some e → e ∈ s.toList.map wrap := by
    intro α s wrap hget
    obtain ⟨a, ha, rfl⟩ := Option.map_eq_some_iff.mp hget
    obtain ⟨l, m, hl, -⟩ := List.lookup_eq_some_iff.mp ha
    refine List.mem_map_of_mem (List.mem_map.mpr ⟨(id, a), ?_, rfl⟩)
    rw [hl]
    exact List.mem_append_right _ List.mem_cons_self
  cases kind with
  | setting => exact hmem ((toOption_find _ _ _ _).symm.trans h)
  | permission => exact hmem ((toOption_find _ _ _ _).symm.trans h)
  | group => exact hmem ((toOption_find _ _ _ _).symm.trans h)
  | role => exact hmem ((toOption_find _ _ _ _).symm.trans h)
  | account => exact hmem ((toOption_find _ _ _ _).symm.trans h)

/-- A source of a relation's phase is a link of that relation. -/
theorem mem_links {relation : Relation} {s : Source} (hs : s ∈ r.links relation) :
    ∃ v target, s = .link v target ∧ v.relation = relation ∧ IsLink r v target := by
  obtain ⟨v, hv, houtcome⟩ := List.mem_filterMap.mp hs
  obtain ⟨e, he, hv⟩ := List.mem_flatMap.mp hv
  obtain ⟨ref, href, rfl⟩ := List.mem_map.mp hv
  -- A visit has a link as its outcome only where its target was found.
  unfold Visit.outcome at houtcome
  split at houtcome
  · next target htarget =>
    obtain rfl := Option.some.inj houtcome
    obtain ⟨id, -, hentity⟩ := Option.bind_eq_some_iff.mp htarget
    exact ⟨_, target, rfl, rfl, he, href, mem_ofKind_of_entity hentity, htarget⟩
  · simp at houtcome

/-- The statement of a link inserts references to its owner and to its target. -/
theorem inserts_link (hr : r.Sound) {v : Visit} {e : Entity} (h : IsLink r v e) :
    ∃ row : Row, v.statement r.names e = row.link ∧
      row.Shows (r.names.table v.relation.table)
        ([(Relation.column v.relation.ownerKind, some (v.owner.key r.names).content),
          (Relation.column v.relation.targetKind, some (e.key r.names).content)]
          ++ v.relation.stamp?.toList.map fun c => (c, some .now)) := by
  -- Settings are not looked up, but no relation has them on either end.
  have howner : v.owner.kind ≠ .setting := by
    rw [kind_of_mem h.owner]
    cases v.relation <;> decide
  have htarget : e.kind ≠ .setting := by
    rw [kind_of_mem h.target]
    cases v.relation <;> decide
  refine ⟨_, rfl, ?_⟩
  rw [(hr.entity (mem_entities h.owner)).lookup?_eq howner,
    (hr.entity (mem_entities h.target)).lookup?_eq htarget]
  exact v.relation.row_shows hr.schema (Kind.key_wellNamed hr.schema _ _)
    (Kind.key_wellNamed hr.schema _ _)

/-- The statement of an override inserts references to its account and to the permission that it
names. -/
theorem inserts_override (hr : r.Sound) (he : r.Emits) {a : Entry Account}
    (ha : a ∈ r.accounts.toList) {o : Override} (ho : o ∈ a.accountOverrides) :
    ∃ row : Row, (Source.override a o).text r.names = row.spread ∧
      row.Shows (r.names.table Tables.accountPermissions)
        ([("account_id", some (Entity.key r.names (.account a)).content),
          ("permission_id", some (Kind.permission.key r.names o.permissionName).content)]
          ++ Content.ofFields [("is_grant", .bool o.isGrant),
            ("valid_from", momentValue o.window.validFrom),
            ("valid_until", momentValue o.window.validUntil),
            ("metadata", .ofTable o.metadata)]) := by
  obtain ⟨row, hrow⟩ := he.overrides a ha o ho
  -- In a sound registry overrides belong to configured accounts, whose keys are look-ups.
  obtain ⟨account, rfl, -⟩ := hr.accounts.mem_toList ha
  refine ⟨row, ?_, o.row_shows hr.schema hrow⟩
  rw [Source.text, hrow]

/-! ## Statements for the scanner -/

/-- A marker is a comment, and on one line. -/
theorem isComment_marker (p : Phase) : IsComment p.marker.toList := by
  refine ⟨' ' :: p.title.toList, by simp [Phase.marker], ?_⟩
  cases p <;> decide

end Registry

/-- The mark on the external identity of an account is one statement. -/
private theorem Account.isSpaced_flagStatement {names : Names}
    (hn : isSchemaName names.authSchema = true) (a : Account) :
    IsSpaced (a.flagStatement names).toList := by
  have htable : Sql.IsName (names.authTable Tables.users) := isName_qualified hn (by decide)
  have hid : Sql.Quiet (Sql.quote a.id.text).toList := by
    rw [← Sql.Expr.text_ofOption]
    exact Sql.quiet_text (Sql.Expr.wellNamed_ofOption _)
  -- Three literals stand in the statement: the empty flags, the new flag and the identity.
  refine ⟨[], (a.flagStatement names).toList, rfl, rfl, 'U',
    ("PDATE ".toList ++ ((names.authTable Tables.users).toList
      ++ (" SET raw_app_meta_data = coalesce(raw_app_meta_data, ".toList
      ++ (Sql.literalChars ['\x7b', '\x7d'] ++ ("::jsonb) || ".toList
      ++ (Sql.literalChars "\x7b\"supamode_access\": \"true\"\x7d".toList
      ++ ("::jsonb WHERE id = ".toList ++ (Sql.quote a.id.text).toList))))))), ?_, by decide,
    by decide, ?_⟩
  · simp [flagStatement, accessFlag, Sql.literalChars, Sql.escapeChars]
  · apply Sql.quiet_inert_append (by decide)
    apply Sql.quiet_inert_append htable.inert
    apply Sql.quiet_inert_append (by decide)
    refine .literal _ (by simp) ?_
    apply Sql.quiet_inert_append (by decide)
    refine .literal _ (by simp) ?_
    exact Sql.quiet_inert_append (by decide) hid

/-- Whatever an entity emits is one statement each. -/
theorem Entity.Sound.isSpaced {e : Entity} (he : e.Sound) {names : Names}
    (hn : isSchemaName names.schema = true) (hauth : isSchemaName names.authSchema = true)
    {t : String} (ht : t ∈ e.texts names) : IsSpaced t.toList := by
  unfold Entity.texts at ht
  split at ht
  · next emission hemit =>
    cases he with
    | setting s hkey =>
      obtain rfl := Except.ok.inj hemit
      obtain rfl := List.mem_singleton.mp ht
      -- The statement of a setting is written out on its own, not by the layout of a row.
      have hwritten := Row.written_feed (s.row names).written_inline
      rw [← String.append_assoc] at hwritten
      exact (s.row_shows hn hkey).isSpaced hwritten
    | permission p hp =>
      obtain ⟨v, hv⟩ := hp
      obtain ⟨row, hrow, rfl⟩ := spreadRow_eq_ok.mp hemit
      obtain rfl := List.mem_singleton.mp ht
      obtain ⟨contents, hshows⟩ := p.exists_shows hn (PermissionConfig.name_ne_empty hv) hrow
      exact hshows.isSpaced row.written_spread
    | group g hg =>
      obtain ⟨v, hv⟩ := hg
      obtain ⟨row, hrow, rfl⟩ := spreadRow_eq_ok.mp hemit
      obtain rfl := List.mem_singleton.mp ht
      exact (g.row_shows hn (GroupConfig.name_ne_empty hv) hrow).isSpaced row.written_spread
    | role o ho =>
      obtain ⟨v, hv⟩ := ho.1
      obtain ⟨row, hrow, rfl⟩ := spreadRow_eq_ok.mp hemit
      obtain rfl := List.mem_singleton.mp ht
      exact (o.row_shows hn (RoleConfig.name_ne_empty hv) hrow).isSpaced row.written_spread
    | account a ha =>
      obtain ⟨row, hrow, rfl⟩ := Account.emit_eq_ok.mp hemit
      rcases List.mem_cons.mp ht with rfl | ht
      · exact a.isSpaced_flagStatement hauth
      · obtain rfl := List.mem_singleton.mp ht
        exact (a.row_shows hn ha.1 hrow).isSpaced row.written_inline
  · simp at ht

namespace Registry

variable {r : Registry}

/-- A source of a kind's phase is a statement of one of its entities. -/
theorem mem_rows {kind : Kind} {s : Source} (hs : s ∈ r.rows kind) :
    ∃ e t, s = .emitted e t ∧ e ∈ r.ofKind kind ∧ t ∈ e.texts r.names := by
  obtain ⟨e, he, hs⟩ := List.mem_flatMap.mp hs
  obtain ⟨t, ht, rfl⟩ := List.mem_map.mp hs
  exact ⟨e, t, rfl, he, ht⟩

/-- A source of the overrides' phase is an override of one of the accounts. -/
theorem mem_overrides {s : Source} (hs : s ∈ r.block .overrides) :
    ∃ a o, s = .override a o ∧ a ∈ r.accounts.toList ∧ o ∈ a.accountOverrides := by
  obtain ⟨a, ha, hs⟩ := List.mem_flatMap.mp hs
  obtain ⟨o, ho, rfl⟩ := List.mem_map.mp hs
  exact ⟨a, o, rfl, ha, ho⟩

/-- What a phase writes: the rows of a kind, the links of a relation, or the overrides. -/
inductive Writes (r : Registry) : Phase → Source → Prop
  | emitted {e : Entity} {t : String} : e ∈ r.ofKind e.kind → t ∈ e.texts r.names →
    Writes r e.kind.phase (.emitted e t)
  | link {v : Visit} {e : Entity} : IsLink r v e → Writes r v.relation.phase (.link v e)
  | override {a : Entry Account} {o : Override} : a ∈ r.accounts.toList →
    o ∈ a.accountOverrides → Writes r .overrides (.override a o)

/-- A phase writes what its kind of phase may write, and nothing else. -/
theorem writes_of_mem_block {p : Phase} {s : Source} (hs : s ∈ r.block p) : r.Writes p s := by
  cases p using Phase.byContent with
  | rows kind =>
    rw [block_kind] at hs
    obtain ⟨e, t, rfl, he, ht⟩ := mem_rows hs
    obtain rfl := kind_of_mem he
    exact .emitted he ht
  | links relation =>
    rw [block_relation] at hs
    obtain ⟨v, e, rfl, rfl, h⟩ := mem_links hs
    exact .link h
  | overrides =>
    obtain ⟨a, o, rfl, ha, ho⟩ := mem_overrides hs
    exact .override ha ho

/-- All that is written is a marker or is written by some phase. -/
theorem mem_sources {s : Source} (hs : s ∈ r.sources) :
    (∃ p, s = .marker p) ∨ ∃ p, r.Writes p s := by
  obtain ⟨p, -, hs⟩ := List.mem_flatMap.mp hs
  rcases List.mem_cons.mp hs with rfl | hs
  · exact .inl ⟨p, rfl⟩
  · exact .inr ⟨p, writes_of_mem_block hs⟩

/-- Whatever a phase writes is one statement for the scanner. -/
theorem Writes.isSpaced (hr : r.Sound) (he : r.Emits) {p : Phase} {s : Source}
    (h : r.Writes p s) : IsSpaced (s.text r.names).toList := by
  -- Links and overrides are rows laid out in some way, and all rows are statements.
  cases h with
  | emitted hmem ht => exact (hr.entity (mem_entities hmem)).isSpaced hr.schema hr.authSchema ht
  | link h =>
    obtain ⟨row, htext, hshows⟩ := inserts_link hr h
    rw [Source.text, htext]
    exact hshows.isSpaced row.written_link
  | override ha ho =>
    obtain ⟨row, htext, hshows⟩ := inserts_override hr he ha ho
    rw [htext]
    exact hshows.isSpaced row.written_spread

/-- Every statement of a compilation is the comment of a marker or one statement. -/
theorem text_of_mem_sources (hr : r.Sound) (he : r.Emits) {s : Source} (hs : s ∈ r.sources) :
    (∃ p, s.text r.names = Phase.marker p) ∨ IsSpaced (s.text r.names).toList := by
  rcases mem_sources hs with ⟨p, rfl⟩ | ⟨p, h⟩
  · exact .inl ⟨p, rfl⟩
  · exact .inr (h.isSpaced hr he)

end Registry

end AccessGraph
