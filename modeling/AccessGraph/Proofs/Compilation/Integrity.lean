import AccessGraph.Proofs.Compilation.Statements

/-!
# Integrity of scripts

A script is read by the scanner of `Sql.scan` as it was written: it ends in plain text, and the
statements that the scanner finds are those of the compilation, without the markers.  No value can
end its literal early, open a comment, or split, merge or swallow a statement.
-/

namespace AccessGraph

open Sql (IsComment IsSpaced IsStatement)

/-- Lines between line feeds and with one at the end are lines with a line feed each. -/
private theorem intercalate_append_feed {ls : List (List Char)} (hne : ls ≠ []) :
    ['\n'].intercalate ls ++ ['\n'] = ls.flatMap (· ++ ['\n']) := by
  induction ls with
  | nil => exact absurd rfl hne
  | cons l ls ih =>
    cases ls with
    | nil => simp
    | cons m ms =>
      have hrest := ih (List.cons_ne_nil m ms)
      rw [List.intercalate_cons_cons, List.flatMap_cons, ← hrest]
      simp

/-- The markers of the phases. -/
def Phase.markers : List String := all.map marker

/-- A phase's marker has no blank at either end. -/
private theorem stripLines_marker (p : Phase) : Text.stripLines p.marker = p.marker := by
  cases p <;> decide

/-- A phase's marker starts as a comment does. -/
private theorem head?_marker (p : Phase) : p.marker.toList.head? = some '-' := by
  simp [Phase.marker]

/-- A statement, behind line feeds or not, does not start with a dash. -/
private theorem Sql.IsSpaced.head?_ne {s : List Char} (h : IsSpaced s) : s.head? ≠ some '-' := by
  obtain ⟨feeds, t, rfl, hfeeds, c, body, rfl, -, hc, -⟩ := h
  -- In front of the statement there can be line feeds, which are no dashes either.
  cases feeds with
  | nil =>
    intro hhead
    obtain rfl := Option.some.inj hhead
    exact absurd hc (by decide)
  | cons d ds =>
    intro hhead
    obtain rfl := Option.some.inj hhead
    exact absurd hfeeds (by simp)

/-- Statements of which each is a marker or one statement of SQL. -/
def AreRegular (ss : List String) : Prop :=
  ∀ s ∈ ss, (∃ p, s = Phase.marker p) ∨ IsSpaced s.toList

/-- The lines of a script that are no comments are the trimmed statements that are no markers. -/
private theorem filter_lines {ss : List String} (h : AreRegular ss) :
    ((ss.map fun s => (Text.stripLines s).toList).filter fun t => t.head? != some '-').map
        String.ofList
      = (ss.filter fun s => s ∉ Phase.markers).map fun s => String.ofList (Sql.trim s.toList) := by
  induction ss with
  | nil => rfl
  | cons s ss ih =>
    obtain ⟨hs, hss⟩ := List.forall_mem_cons.mp h
    -- A marker is left out on both sides; a statement is kept on both.
    rcases hs with ⟨p, rfl⟩ | hs
    · have hmem : p.marker ∈ Phase.markers := List.mem_map_of_mem (Phase.mem_all p)
      simp [stripLines_marker, head?_marker, hmem, ih hss]
    · obtain ⟨t, ht, hstrip, htrim⟩ := hs.strip
      have hmem : s ∉ Phase.markers := by
        intro hmem
        obtain ⟨p, -, rfl⟩ := List.mem_map.mp hmem
        exact hs.head?_ne (head?_marker p)
      have hline : (Text.stripLines s).toList = t := by
        rw [Text.stripLines, String.toList_ofList, hstrip]
      have hhead : (t.head? != some '-') = true := by
        obtain ⟨c, body, rfl, -, hc, -⟩ := ht
        rw [bne_iff_ne]
        intro hhead
        obtain rfl := Option.some.inj hhead
        exact absurd hc (by decide)
      simp only [List.map_cons, List.filter_cons, hline, hhead, ↓reduceIte, hmem,
        not_false_eq_true, decide_true, ih hss, htrim]

/-- A script of markers and statements is read as these statements. -/
theorem scan_script {ss : List String} (hne : ss ≠ []) (h : AreRegular ss) :
    (Sql.scan .plain (Sql.script ss).toList).final = .plain ∧
      (Sql.scan .plain (Sql.script ss).toList).statements
        = (ss.filter fun s => s ∉ Phase.markers).map fun s =>
            String.ofList (Sql.trim s.toList) := by
  -- The text joins the statements with line feeds and ends with one, so each has its own line feed.
  have hlines : (Sql.script ss).toList
      = (ss.map fun s => (Text.stripLines s).toList).flatMap (· ++ ['\n']) := by
    have hfeed : "\n".toList = ['\n'] := by simp
    rw [Sql.script, String.toList_append, String.toList_intercalate, hfeed,
      intercalate_append_feed (by simpa using hne), List.map_map]
    rfl
  have hregular : ∀ t ∈ ss.map fun s => (Text.stripLines s).toList,
      IsComment t ∨ IsStatement t := by
    intro t ht
    obtain ⟨s, hs, rfl⟩ := List.mem_map.mp ht
    rcases h s hs with ⟨p, rfl⟩ | hs
    · rw [stripLines_marker]
      exact .inl (Registry.isComment_marker p)
    · obtain ⟨u, hu, hstrip, -⟩ := hs.strip
      rw [Text.stripLines, String.toList_ofList, hstrip]
      exact .inr hu
  obtain ⟨hfinal, hstatements⟩ := Sql.statements_scan_lines _ hregular
  rw [hlines]
  exact ⟨hfinal, by rw [Sql.Scan.statements, hstatements, filter_lines h]⟩

namespace Registry

variable {r : Registry}

/-- The statements of a compilation are markers and statements of SQL. -/
private theorem areRegular_statements (hr : r.Sound) {c : Compilation}
    (h : r.compile.result = .ok c) :
    AreRegular c.statements ∧ c.statements ≠ [] := by
  have he := emits_of_compile hr h
  rw [compile_eq_sources he] at h
  obtain rfl := Except.ok.inj h
  refine ⟨?_, ?_⟩
  · intro s hs
    obtain ⟨hs, -⟩ := List.mem_filter.mp hs
    obtain ⟨source, hsource, rfl⟩ := List.mem_map.mp hs
    exact text_of_mem_sources hr he hsource
  · -- There is always a first marker.
    have hfirst : Phase.settings.marker ∈ (r.sources.map (Source.text r.names)).filter
        fun s => !Text.isBlank s := by
      refine List.mem_filter.mpr ⟨?_, by rw [isBlank_marker, Bool.not_false]⟩
      exact List.mem_map.mpr ⟨.marker .settings,
        List.mem_flatMap.mpr ⟨.settings, by decide, List.mem_cons_self⟩, rfl⟩
    exact List.ne_nil_of_mem hfirst

/-- Whenever a reachable registry returns a script, the scanner ends in plain text and finds
exactly the statements of the compilation, trimmed and without the markers, in their order. -/
theorem scan_toScript (h : r.Built) {script : String} (hscript : r.toScript.result = .ok script) :
    ∃ c, r.compile.result = .ok c ∧
      (Sql.scan .plain script.toList).final = .plain ∧
      (Sql.scan .plain script.toList).statements
        = (c.statements.filter fun s => s ∉ Phase.markers).map fun s =>
            String.ofList (Sql.trim s.toList) := by
  obtain ⟨ss, hss, rfl⟩ := Except.map_eq_ok.mp hscript
  unfold generate at hss
  simp only at hss
  split at hss
  · next c hc =>
    obtain rfl := Except.ok.inj hss
    -- What was compiled is regular, and a script of regular statements scans piece by piece.
    obtain ⟨hregular, hne⟩ := areRegular_statements h.sound hc
    exact ⟨c, hc, scan_script hne hregular⟩
  · simp at hss

/-- The sample has a setting with a quote, dashes and a semicolon in its value. -/
theorem scan_toScript_sample :
    ∃ script c, sample.Built ∧ sample.toScript.result = .ok script ∧
      sample.compile.result = .ok c ∧ (Sql.scan .plain script.toList).final = .plain ∧
      (Sql.scan .plain script.toList).statements
        = (c.statements.filter fun s => s ∉ Phase.markers).map fun s =>
            String.ofList (Sql.trim s.toList) := by
  have hok : sample.toScript.result.isOk = true := by decide +kernel
  obtain ⟨script, hscript⟩ := Except.exists_of_isOk hok
  obtain ⟨c, hc, hfinal, hstatements⟩ := scan_toScript built_sample hscript
  exact ⟨script, c, built_sample, hscript, hc, hfinal, hstatements⟩

end Registry

end AccessGraph
