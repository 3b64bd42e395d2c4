import AccessGraph.Proofs.Compilation.Statements

/-!
# References resolve by natural keys

The rows of entities come first in a compilation, and among them every key finds the row of one
entity.  So the two subqueries of a link, which stands behind all rows of entities, find the row of
its owner and that of the entity referred to, and nothing else; and so do those of an override,
except that its permission need not be registered.
-/

namespace AccessGraph

open Sql (Insertion IsSpaced Row)

/-! ## Lists -/

/-! ## Tables of statements -/

/-- The table that a source is inserted into. -/
def Source.table? : Source → Option String
  | .marker _ => none
  | .emitted e _ => some e.kind.table
  | .link v _ => some v.relation.table
  | .override _ _ => some Tables.accountPermissions

/-- Each relation has a table of its own. -/
private theorem Relation.table_inj {a b : Relation} : a.table = b.table ↔ a = b := by
  refine ⟨fun h => ?_, fun h => h ▸ rfl⟩
  revert h
  cases a <;> cases b <;> decide

/-- No kind of entity shares a table with a relation. -/
theorem Kind.table_ne_relation (kind : Kind) (relation : Relation) :
    kind.table ≠ relation.table := by
  cases kind <;> cases relation <;> decide

/-- No kind of entity shares a table with the overrides. -/
theorem Kind.table_ne_overrides (kind : Kind) : kind.table ≠ Tables.accountPermissions := by
  cases kind <;> decide

/-- No relation shares a table with the overrides. -/
theorem Relation.table_ne_overrides (relation : Relation) :
    relation.table ≠ Tables.accountPermissions := by
  cases relation <;> decide

/-- A marker does not read as a row. -/
private theorem Phase.read?_marker (p : Phase) : Insertion.read? p.marker = none := by
  have hhead : p.marker.toList = '-' :: p.marker.toList.tail := by simp [marker]
  exact read?_eq_none hhead (by decide) (by decide)

namespace Registry

variable {r : Registry}

/-- Where all that is registered can be written, each entity of a kind is. -/
theorem Emits.emit_ok (he : r.Emits) {kind : Kind} {e : Entity} (hmem : e ∈ r.ofKind kind) :
    ∃ emission, e.emit r.names = .ok emission := by
  by_cases hkind : kind = .account
  · subst hkind
    obtain ⟨ts, hts⟩ := he.statements e hmem
    exact ⟨_, hts⟩
  · obtain ⟨t, ht⟩ := he.statement kind hkind e hmem
    exact ⟨_, ht⟩

/-- What a source inserts goes into the table of the source. -/
private theorem table?_of_insertedTable? (hr : r.Sound) (he : r.Emits) {s : Source} {t : String}
    (hs : s ∈ r.sources) (ht : insertedTable? (s.text r.names) = some t) :
    s.table?.map r.names.table = some t := by
  rcases mem_sources hs with ⟨p, rfl⟩ | ⟨p, h⟩
  · -- A marker reads as no row, and each other source says in which table it belongs.
    rw [Source.text, insertedTable?, Phase.read?_marker] at ht
    exact absurd ht (by simp)
  · cases h with
    | @emitted e text hmem htext =>
      obtain ⟨emission, hemit⟩ := he.emit_ok hmem
      obtain ⟨fields, -, hrecords⟩ := (hr.entity (mem_entities hmem)).records hr.schema hemit
      rw [Entity.texts, hemit] at htext
      rw [hrecords.table_eq htext ht]
      rfl
    | link h =>
      obtain ⟨row, htext, hshows⟩ := inserts_link hr h
      rw [Source.text, htext, (hshows.inserts row.written_link).insertedTable?] at ht
      exact ht
    | override ha ho =>
      obtain ⟨row, htext, hshows⟩ := inserts_override hr he ha ho
      rw [htext, (hshows.inserts row.written_spread).insertedTable?] at ht
      exact ht

/-- Keys of entities find nothing but rows of entities of their kind. -/
private theorem emitted_of_finds (hr : r.Sound) (he : r.Emits) {s : Source} (hs : s ∈ r.sources)
    {kind : Kind} {value : String} (h : (kind.key r.names value).finds (s.text r.names) = true) :
    ∃ e t, s = .emitted e t ∧ e.kind = kind := by
  have htable := table?_of_insertedTable? hr he hs (NaturalKey.insertedTable?_of_finds h)
  obtain ⟨u, hu, heq⟩ := Option.map_eq_some_iff.mp htable
  obtain rfl := r.names.table_inj.mp heq
  cases s with
  | marker p => exact absurd hu (by simp [Source.table?])
  | emitted e t => exact ⟨e, t, rfl, Kind.table_inj.mp (Option.some.inj hu)⟩
  | link v e => exact absurd (Option.some.inj hu).symm (kind.table_ne_relation _)
  | override a o => exact absurd (Option.some.inj hu).symm kind.table_ne_overrides

/-! ## Rows in front of references -/

/-- The rows of entities, kind by kind, behind their markers. -/
def rowSources (r : Registry) : List Source :=
  Kind.all.flatMap fun kind => .marker kind.phase :: r.rows kind

/-- The links and the overrides, behind their markers. -/
def referenceSources (r : Registry) : List Source :=
  (Relation.all.map Relation.phase ++ [Phase.overrides]).flatMap fun p => .marker p :: r.block p

/-- Everything that is written for rows comes before all that refers to them. -/
theorem sources_eq : r.sources = r.rowSources ++ r.referenceSources := by
  simp [sources, rowSources, referenceSources, Phase.all, Kind.all, Kind.phase, Relation.all,
    Relation.phase, block]

/-- Before the links stand markers and statements of entities only. -/
private theorem mem_rowSources {s : Source} (hs : s ∈ r.rowSources) :
    (∃ p, s = .marker p) ∨ ∃ e t, s = .emitted e t := by
  obtain ⟨kind, -, hs⟩ := List.mem_flatMap.mp hs
  rcases List.mem_cons.mp hs with rfl | hs
  · exact .inl ⟨_, rfl⟩
  · obtain ⟨e, t, rfl, -⟩ := mem_rows hs
    exact .inr ⟨e, t, rfl⟩

/-- Among the links and overrides there is no statement of an entity. -/
private theorem mem_referenceSources {s : Source} (hs : s ∈ r.referenceSources) (e : Entity)
    (t : String) :
    s ≠ .emitted e t := by
  intro heq
  subst heq
  obtain ⟨p, hp, hs⟩ := List.mem_flatMap.mp hs
  rcases List.mem_cons.mp hs with hs | hs
  · exact absurd hs (by simp)
  · -- Only a phase of a kind writes rows of entities, and these phases are none.
    have hwrites := writes_of_mem_block hs
    generalize hsource : Source.emitted e t = s at hwrites
    cases hwrites with
    | @emitted e _ _ _ =>
      revert hp
      cases e.kind <;> decide
    | link _ => exact absurd hsource (by simp)
    | override _ _ => exact absurd hsource (by simp)

/-- Links and overrides stand behind the rows of entities. -/
private theorem length_rowSources_le {i : Nat} {s : Source} (hs : r.sources[i]? = some s)
    (hmarker : ∀ p, s ≠ .marker p) (hemitted : ∀ e t, s ≠ .emitted e t) :
    r.rowSources.length ≤ i := by
  by_cases hi : i < r.rowSources.length
  · rw [sources_eq, List.getElem?_append_left hi] at hs
    rcases mem_rowSources (List.mem_of_getElem? hs) with ⟨p, rfl⟩ | ⟨e, t, rfl⟩
    · exact absurd rfl (hmarker p)
    · exact absurd rfl (hemitted e t)
  · omega

/-! ## Distinct keys -/

/-- No two entities of a kind have the same key. -/
theorem nodup_keyText (hr : r.Sound) (kind : Kind) :
    ((r.ofKind kind).map Entity.keyText).Nodup := by
  -- Settings and accounts are found by their identifiers, the other kinds by their names.
  cases kind with
  | setting =>
    have hkeys := hr.settings.keys
    rw [hr.settings.keys_eq] at hkeys
    rw [ofKind, List.map_map]
    exact hkeys
  | permission =>
    rw [ofKind, List.map_map]
    exact hr.permissionNames
  | group =>
    rw [ofKind, List.map_map]
    exact hr.groupNames
  | role =>
    rw [ofKind, List.map_map]
    exact hr.roleNames
  | account =>
    have hkeys := hr.accounts.keys
    rw [hr.accounts.keys_eq] at hkeys
    rw [ofKind, List.map_map]
    exact hkeys

/-! ## What keys find -/

/-- The sources whose statements a key finds. -/
def found (r : Registry) (k : NaturalKey) (ss : List Source) : List Source :=
  ss.filter fun s => k.finds (s.text r.names)

/-- No link and no override is taken for the row of an entity. -/
private theorem found_referenceSources (hr : r.Sound) (he : r.Emits) (kind : Kind)
    (value : String) :
    r.found (kind.key r.names value) r.referenceSources = [] := by
  rw [found, List.filter_eq_nil_iff]
  intro s hs hfinds
  have hmem : s ∈ r.sources := by
    rw [sources_eq]
    exact List.mem_append_right _ hs
  obtain ⟨e, t, rfl, -⟩ := emitted_of_finds hr he hmem hfinds
  exact mem_referenceSources hs e t rfl

/-- Among all rows, a key finds those that it finds among what each entity of its kind emits. -/
private theorem found_rowSources (hr : r.Sound) (he : r.Emits) (kind : Kind) (value : String) :
    r.found (kind.key r.names value) r.rowSources =
      (r.ofKind kind).flatMap fun e =>
        ((e.texts r.names).filter (kind.key r.names value).finds).map (.emitted e) := by
  -- Markers insert nothing.
  have hkind : ∀ other : Kind, r.found (kind.key r.names value)
      (.marker other.phase :: r.rows other) = r.found (kind.key r.names value) (r.rows other) := by
    intro other
    exact List.filter_cons_of_neg (by simp [NaturalKey.finds, Source.text, Phase.read?_marker])
  -- Rows of other kinds stand in other tables.
  have hother : ∀ other ∈ Kind.all, other ≠ kind →
      r.found (kind.key r.names value) (.marker other.phase :: r.rows other) = [] := by
    intro other hmem hne
    rw [hkind, found, List.filter_eq_nil_iff]
    intro s hs hfinds
    have hsource : s ∈ r.sources := by
      rw [sources_eq]
      exact List.mem_append_left _
        (List.mem_flatMap.mpr ⟨other, hmem, List.mem_cons_of_mem _ hs⟩)
    obtain ⟨e, t, rfl, rfl⟩ := emitted_of_finds hr he hsource hfinds
    obtain ⟨e', t', heq, hmem', -⟩ := mem_rows hs
    obtain ⟨rfl, -⟩ := Source.emitted.inj heq
    exact hne (kind_of_mem hmem').symm
  have hsingle : r.found (kind.key r.names value) r.rowSources
      = r.found (kind.key r.names value) (.marker kind.phase :: r.rows kind) := by
    rw [found, rowSources, List.filter_flatMap]
    exact flatMap_eq_of_nodup (g := id) (by decide) (by cases kind <;> decide) hother
  rw [hsingle, hkind, found, rows, List.filter_flatMap]
  refine List.flatMap_congr fun e _ => ?_
  rw [List.filter_map]
  rfl

/-- Among the statements for one entity its natural key finds its row alone, and another key
nothing. -/
private theorem texts_filter (hr : r.Sound) (he : r.Emits) {kind : Kind} {e : Entity}
    (hmem : e ∈ r.ofKind kind) :
    ∃ row, ∀ value, (e.texts r.names).filter (kind.key r.names value).finds
      = if e.keyText = value then [row] else [] := by
  obtain ⟨emission, hemit⟩ := he.emit_ok hmem
  obtain ⟨row, -, hfilter⟩ := (hr.entity (mem_entities hmem)).filter_finds hr.schema hemit
  refine ⟨row, fun value => ?_⟩
  rw [Entity.texts, hemit]
  exact (hfilter kind value).trans (if_congr (and_iff_right (kind_of_mem hmem)) rfl rfl)

/-- The key of an entity finds one row, which is a row of the entity. -/
private theorem found_key (hr : r.Sound) (he : r.Emits) {kind : Kind} {e : Entity}
    (hmem : e ∈ r.ofKind kind) :
    ∃ row, r.found (e.key r.names) r.rowSources = [.emitted e row] := by
  obtain ⟨row, hrow⟩ := texts_filter hr he hmem
  refine ⟨row, ?_⟩
  -- No other entity of the kind has the same key.
  have hother : ∀ b ∈ r.ofKind kind, b.keyText ≠ e.keyText →
      ((b.texts r.names).filter (kind.key r.names e.keyText).finds).map (Source.emitted b)
        = [] := by
    intro b hb hne
    obtain ⟨_, hfilter⟩ := texts_filter hr he hb
    rw [hfilter, if_neg hne, List.map_nil]
  rw [Entity.key, kind_of_mem hmem, found_rowSources hr he,
    flatMap_eq_of_nodup (nodup_keyText hr kind) hmem hother, hrow, if_pos rfl]
  rfl

/-- A key finds nothing if no entity of its kind has it. -/
private theorem found_eq_nil (hr : r.Sound) (he : r.Emits) {kind : Kind} {value : String}
    (hfree : ∀ e ∈ r.ofKind kind, e.keyText ≠ value) :
    r.found (kind.key r.names value) r.rowSources = [] := by
  rw [found_rowSources hr he, List.flatMap_eq_nil_iff]
  intro e hmem
  obtain ⟨_, hfilter⟩ := texts_filter hr he hmem
  rw [hfilter, if_neg (hfree e hmem), List.map_nil]

/-- Among the statements a key finds just one, which is a row of the entity and stands in front of
a position. -/
def FindsBefore (r : Registry) (statements : List String) (i : Nat) (k : NaturalKey)
    (e : Entity) : Prop :=
  ∃ j < i, ∃ row, r.sources[j]? = some (.emitted e row) ∧ statements[j]? = some row ∧
    ∀ l s, statements[l]? = some s → (k.finds s = true ↔ l = j)

/-- The key of an entity finds its row in front of all links and overrides. -/
private theorem findsBefore (hr : r.Sound) (he : r.Emits) {kind : Kind} {e : Entity}
    (hmem : e ∈ r.ofKind kind) {i : Nat} (hi : r.rowSources.length ≤ i) :
    r.FindsBefore (r.sources.map (Source.text r.names)) i (e.key r.names) e := by
  -- The row is found once among the rows, and nothing is found among the references.
  obtain ⟨row, hrow⟩ := found_key hr he hmem
  obtain ⟨j, hj, hat, honly⟩ :=
    exists_position hrow (found_referenceSources hr he e.kind e.keyText)
  rw [← sources_eq] at hat honly
  -- All rows come before the references, so the position is an earlier one.
  refine ⟨j, by omega, row, hat, ?_, ?_⟩
  · rw [List.getElem?_map, hat]
    rfl
  · intro l s hs
    rw [List.getElem?_map] at hs
    obtain ⟨source, hsource, rfl⟩ := Option.map_eq_some_iff.mp hs
    exact honly l source hsource

/-! ## References -/

/-- The references of a link: to its owner and to the entity that is registered under the
identifier referred to. -/
structure LinkResolves (r : Registry) (statements : List String) (i : Nat) (v : Visit)
    (target : Entity) : Prop where
  isLink : IsLink r v target
  resolves : ∃ k l, subqueries (v.statement r.names target) = [k, l] ∧
    r.FindsBefore statements i k v.owner ∧ r.FindsBefore statements i l target

/-- The references of an override: to its account and to the permission of the name that it gives,
if one is registered. -/
structure OverrideResolves (r : Registry) (statements : List String) (i : Nat)
    (a : Entry Account) (o : Override) : Prop where
  account : a ∈ r.accounts.toList
  override : o ∈ a.accountOverrides
  resolves : ∃ k l, subqueries ((Source.override a o).text r.names) = [k, l] ∧
    r.FindsBefore statements i k (.account a) ∧
    (∀ p ∈ r.permissions.toList, p.permissionName = o.permissionName →
      r.FindsBefore statements i l (.permission p)) ∧
    ((∀ p ∈ r.permissions.toList, p.permissionName ≠ o.permissionName) →
      ∀ s ∈ statements, l.finds s = false)

/-- Both look-ups of a link find the one row that each is meant to find, and find it earlier. -/
theorem linkResolves (hr : r.Sound) (he : r.Emits) {i : Nat} {v : Visit} {target : Entity}
    (h : r.sources[i]? = some (.link v target)) :
    r.LinkResolves (r.sources.map (Source.text r.names)) i v target := by
  have hi := length_rowSources_le h (by simp) (by simp)
  -- Among the sources a link can only come from the phase of its relation.
  have hlink : IsLink r v target := by
    rcases mem_sources (List.mem_of_getElem? h) with ⟨p, hp⟩ | ⟨p, hp⟩
    · exact absurd hp (by simp)
    · cases hp with
      | link h => exact h
  obtain ⟨row, htext, hshows⟩ := inserts_link hr hlink
  refine ⟨hlink, v.owner.key r.names, target.key r.names, ?_, findsBefore hr he hlink.owner hi,
    findsBefore hr he hlink.target hi⟩
  rw [htext, (hshows.inserts row.written_link).subqueries]
  -- The look-ups are written in the order of the columns, which each relation has its own of.
  cases v.relation <;> rfl

/-- The look-ups of an override find the one row that each is meant to find, and find it earlier. -/
theorem overrideResolves (hr : r.Sound) (he : r.Emits) {i : Nat} {a : Entry Account}
    {o : Override} (h : r.sources[i]? = some (.override a o)) :
    r.OverrideResolves (r.sources.map (Source.text r.names)) i a o := by
  have hi := length_rowSources_le h (by simp) (by simp)
  obtain ⟨ha, ho⟩ : a ∈ r.accounts.toList ∧ o ∈ a.accountOverrides := by
    rcases mem_sources (List.mem_of_getElem? h) with ⟨p, hp⟩ | ⟨p, hp⟩
    · exact absurd hp (by simp)
    · cases hp with
      | override ha ho => exact ⟨ha, ho⟩
  obtain ⟨row, htext, hshows⟩ := inserts_override hr he ha ho
  have hmem : Entity.account a ∈ r.ofKind .account := List.mem_map_of_mem ha
  refine ⟨ha, ho, Entity.key r.names (.account a),
    Kind.permission.key r.names o.permissionName, ?_, findsBefore hr he hmem hi, ?_, ?_⟩
  · rw [htext, (hshows.inserts row.written_spread).subqueries, List.filterMap_append,
      filterMap_key?_ofFields]
    rfl
  · intro p hp hname
    rw [← hname]
    have hmem : Entity.permission p ∈ r.ofKind .permission := List.mem_map_of_mem hp
    exact findsBefore hr he hmem hi
  · intro hfree s hs
    obtain ⟨source, hsource, rfl⟩ := List.mem_map.mp hs
    -- Neither rows nor references are found.
    have hnil : r.found (Kind.permission.key r.names o.permissionName) r.sources = [] := by
      rw [sources_eq, found, List.filter_append]
      refine List.append_eq_nil_iff.mpr ⟨found_eq_nil hr he ?_, found_referenceSources hr he _ _⟩
      intro e he
      obtain ⟨p, hp, rfl⟩ := List.mem_map.mp he
      exact hfree p hp
    simpa using List.filter_eq_nil_iff.mp hnil source hsource

/-! ## Statements of a reachable registry -/

/-- A statement is not blank, with line feeds in front or not. -/
private theorem isBlank_of_isSpaced {s : String} (h : IsSpaced s.toList) :
    Text.isBlank s = false := by
  obtain ⟨feeds, t, hs, -, c, body, rfl, hc, -⟩ := h
  simp [Text.isBlank, hs, hc]

/-- No statement of a reachable registry is blank. -/
theorem statements_eq (hr : r.Sound) {c : Compilation} (hc : r.compile.result = .ok c) :
    c.statements = r.sources.map (Source.text r.names) := by
  have he := emits_of_compile hr hc
  rw [compile_eq_sources he] at hc
  obtain rfl := Except.ok.inj hc
  -- Nothing is filtered out, as no source is written as a blank.
  rw [List.filter_eq_self]
  intro s hs
  obtain ⟨source, hsource, rfl⟩ := List.mem_map.mp hs
  rw [Bool.not_eq_true']
  rcases text_of_mem_sources hr he hsource with ⟨p, hp⟩ | hspaced
  · rw [hp]
    exact isBlank_marker p
  · exact isBlank_of_isSpaced hspaced

/-- What inserts into the table of a relation is a link of the relation. -/
theorem inserts_relation_iff (hr : r.Sound) (he : r.Emits) {s : Source} (hs : s ∈ r.sources)
    (relation : Relation) :
    insertedTable? (s.text r.names) = some (r.names.table relation.table) ↔
      ∃ v target, s = .link v target ∧ v.relation = relation := by
  refine ⟨fun ht => ?_, ?_⟩
  · -- The tables of the other sources are different ones.
    obtain ⟨u, hu, heq⟩ := Option.map_eq_some_iff.mp (table?_of_insertedTable? hr he hs ht)
    obtain rfl := r.names.table_inj.mp heq
    cases s with
    | marker p => exact absurd hu (by simp [Source.table?])
    | emitted e t => exact absurd (Option.some.inj hu) (Kind.table_ne_relation _ _)
    | link v target => exact ⟨v, target, rfl, Relation.table_inj.mp (Option.some.inj hu)⟩
    | override a o => exact absurd (Option.some.inj hu).symm (Relation.table_ne_overrides _)
  · intro h
    obtain ⟨v, target, rfl, rfl⟩ := h
    rcases mem_sources hs with ⟨p, hp⟩ | ⟨p, hp⟩
    · exact absurd hp (by simp)
    · cases hp with
      | link h =>
        obtain ⟨row, htext, hshows⟩ := inserts_link hr h
        rw [Source.text, htext]
        exact (hshows.inserts row.written_link).insertedTable?

/-- What inserts into the table of overrides is an override. -/
private theorem inserts_overrides_iff (hr : r.Sound) (he : r.Emits) {s : Source}
    (hs : s ∈ r.sources) :
    insertedTable? (s.text r.names) = some (r.names.table Tables.accountPermissions) ↔
      ∃ a o, s = .override a o := by
  refine ⟨fun ht => ?_, ?_⟩
  · -- The tables of the other sources are different ones.
    obtain ⟨u, hu, heq⟩ := Option.map_eq_some_iff.mp (table?_of_insertedTable? hr he hs ht)
    obtain rfl := r.names.table_inj.mp heq
    cases s with
    | marker p => exact absurd hu (by simp [Source.table?])
    | emitted e t => exact absurd (Option.some.inj hu) (Kind.table_ne_overrides _)
    | link v target => exact absurd (Option.some.inj hu) (Relation.table_ne_overrides _)
    | override a o => exact ⟨a, o, rfl⟩
  · intro h
    obtain ⟨a, o, rfl⟩ := h
    rcases mem_sources hs with ⟨p, hp⟩ | ⟨p, hp⟩
    · exact absurd hp (by simp)
    · cases hp with
      | override ha ho =>
        obtain ⟨row, htext, hshows⟩ := inserts_override hr he ha ho
        rw [htext]
        exact (hshows.inserts row.written_spread).insertedTable?

/-- In a reachable registry that compiles, the statements that insert into the table of a relation
are just those of its links, and those that insert into the table of overrides just those of the
overrides.  Each of the two subqueries of a link finds one statement of the whole output, which
stands in front of it: the row of the owner, and the row of the entity registered under the
identifier referred to.  An override refers to its account in the same way, and to the permission of
its name if one is registered; otherwise its second subquery finds nothing. -/
theorem references_resolve (h : r.Built) {c : Compilation} (hc : r.compile.result = .ok c) :
    (∀ (i : Nat) (relation : Relation) (s : String), c.statements[i]? = some s →
      insertedTable? s = some (r.names.table relation.table) →
      ∃ v target, s = v.statement r.names target ∧ v.relation = relation ∧
        r.LinkResolves c.statements i v target) ∧
    (∀ (i : Nat) (s : String), c.statements[i]? = some s →
      insertedTable? s = some (r.names.table Tables.accountPermissions) →
      ∃ a o, s = (Source.override a o).text r.names ∧
        r.OverrideResolves c.statements i a o) ∧
    c.statements = r.sources.map (Source.text r.names) ∧
    ∀ s ∈ r.sources,
      (∀ v target, s = .link v target →
        insertedTable? (s.text r.names) = some (r.names.table v.relation.table)) ∧
      (∀ a o, s = .override a o →
        insertedTable? (s.text r.names) = some (r.names.table Tables.accountPermissions)) := by
  have hr := h.sound
  have he := emits_of_compile hr hc
  rw [statements_eq hr hc]
  refine ⟨?_, ?_, rfl, ?_⟩
  -- Positions of statements are those of their sources, since nothing is blank.
  · intro i relation s hs ht
    rw [List.getElem?_map] at hs
    obtain ⟨source, hsource, rfl⟩ := Option.map_eq_some_iff.mp hs
    have hmem := List.mem_of_getElem? hsource
    obtain ⟨v, target, rfl, hrelation⟩ := (inserts_relation_iff hr he hmem relation).mp ht
    exact ⟨v, target, rfl, hrelation, linkResolves hr he hsource⟩
  · intro i s hs ht
    rw [List.getElem?_map] at hs
    obtain ⟨source, hsource, rfl⟩ := Option.map_eq_some_iff.mp hs
    have hmem := List.mem_of_getElem? hsource
    obtain ⟨a, o, rfl⟩ := (inserts_overrides_iff hr he hmem).mp ht
    exact ⟨a, o, rfl, overrideResolves hr he hsource⟩
  · intro s hs
    refine ⟨fun v target hlink => ?_, fun a o hoverride => ?_⟩
    · exact (inserts_relation_iff hr he hs v.relation).mpr ⟨v, target, hlink, rfl⟩
    · exact (inserts_overrides_iff hr he hs).mpr ⟨a, o, hoverride⟩

/-- The first link of the sample stands at the thirteenth place. -/
theorem references_resolve_sample :
    ∃ c v target, sample.compile.result = .ok c ∧
      c.statements[12]? = some (v.statement sample.names target) ∧
      sample.LinkResolves c.statements 12 v target := by
  have hok : sample.compile.result.isOk = true := by decide +kernel
  obtain ⟨c, hc⟩ := Except.exists_of_isOk hok
  obtain ⟨hlinks, -, hstatements, htables⟩ := references_resolve built_sample hc
  -- The source at the position is a link, so the others are out of the question.
  have hsource : (sample.sources[12]?.map Source.isLink) = some true := by decide +kernel
  obtain ⟨s, hs, hlink⟩ := Option.map_eq_some_iff.mp hsource
  cases s with
  | link v target =>
    have hat : c.statements[12]? = some (v.statement sample.names target) := by
      rw [hstatements, List.getElem?_map, hs]
      rfl
    have htable := (htables _ (List.mem_of_getElem? hs)).1 v target rfl
    obtain ⟨w, other, heq, -, hresolves⟩ := hlinks 12 v.relation _ hat htable
    exact ⟨c, w, other, hc, heq ▸ hat, hresolves⟩
  | marker p => exact absurd hlink Bool.false_ne_true
  | emitted e t => exact absurd hlink Bool.false_ne_true
  | override a o => exact absurd hlink Bool.false_ne_true

end Registry

end AccessGraph
