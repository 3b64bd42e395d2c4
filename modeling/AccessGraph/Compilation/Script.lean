import AccessGraph.Compilation.Phase
import AccessGraph.Log

/-!
# Compilation to a script

A compilation runs the phases one after another up to the first failure.  Its statements are the
items of all phases, each phase behind its marker, without blank statements; its diagnostics tell
the skipped references.  Blank statements are looked for once all phases have run; a list that an
entity emitted in the place of a statement is found out only then.  The log tells the phases begun
and, when the statements are handed out, a warning for each skipped reference and the totals.
-/

namespace AccessGraph

/-- A skipped relationship: the kind and identifier of its owner, the missing identifier, and a
sentence. -/
structure Diagnostic where
  relation : String
  ownerId : String
  missingId : String
  message : String
  deriving DecidableEq, Repr

/-- The identifier that a reference refers to, as a text. -/
def Reference.missingId (ref : Reference) : String :=
  match Field.text ref.targetId with
  | .ok s => s
  | .bad _ => ref.targetId.display

/-- The diagnostic for a reference that does not resolve. -/
def Reference.diagnostic (ref : Reference) : Diagnostic :=
  let relation := ref.ownerKind.innerNoun
  ⟨relation, ref.ownerId.text, ref.missingId,
    notFoundMessage ref.targetKind ref.targetId.display ++ " when assigning to " ++ relation
      ++ " '" ++ ref.ownerId.shown ++ "'"⟩

/-- The outcome of a compilation. -/
structure Compilation where
  statements : List String
  diagnostics : List Diagnostic
  deriving DecidableEq, Repr

/-- Statements as a script: without line feeds around them, one after another. -/
def Sql.script (statements : List String) : String :=
  String.intercalate "\n" (statements.map Text.stripLines) ++ "\n"

namespace Compilation

/-- The script of a compilation. -/
def toScript (c : Compilation) : String := Sql.script c.statements

/-- Whether something was skipped. -/
def hasWarnings (c : Compilation) : Bool := !c.diagnostics.isEmpty

/-- The compilation that items make up. -/
def ofItems (items : List Item) : Compilation :=
  ⟨(items.filterMap Item.statement?).filter fun s => !Text.isBlank s,
    (items.filterMap Item.skipped?).map Reference.diagnostic⟩

/-- The record of a phase begun. -/
def phaseRecord (p : Phase) : LogRecord := ⟨.debug, "Phase: " ++ p.title⟩

/-- The record of a skipped relationship. -/
def warning (d : Diagnostic) : LogRecord := ⟨.warning, "Warning: " ++ d.message⟩

/-- The record of the totals. -/
def totals (c : Compilation) : LogRecord :=
  ⟨.info, "Generated " ++ Text.natText c.statements.length ++ " statements ("
    ++ Text.natText c.diagnostics.length ++ " relationships skipped)"⟩

/-- The records that report on a compilation. -/
def report (c : Compilation) : List LogRecord := c.diagnostics.map warning ++ [c.totals]

end Compilation

/-- A result with the records written on the way to it. -/
structure Logged (α : Type) where
  log : List LogRecord
  result : Except Error α

namespace Registry

/-- Runs phases up to the first failure; tells the phases begun and the items. -/
def runPhases (r : Registry) : List Phase → List Phase × Except Failure (List Item)
  | [] => ([], .ok [])
  | p :: ps =>
    match r.items p with
    | .error failure => ([p], .error failure)
    | .ok items =>
      let rest := r.runPhases ps
      (p :: rest.1, rest.2.map fun more => .statement p.marker :: items ++ more)

/-- Whether an entity that is no account emits a list where one statement is due. -/
def emitsList (r : Registry) : Bool :=
  r.settings.toList.any Entry.emitsList || r.permissions.toList.any Entry.emitsList
    || r.groups.toList.any Entry.emitsList || r.roles.toList.any Entry.emitsList

/-- Compiles the graph. -/
def compile (r : Registry) : Logged Compilation :=
  let run := r.runPhases Phase.all
  ⟨run.1.map Compilation.phaseRecord,
    match run.2 with
    | .ok items => if r.emitsList then .error .listOfStatements else .ok (.ofItems items)
    | .error failure => .error (.compilation failure)⟩

/-- Compiles the graph and reports on the outcome. -/
def generate (r : Registry) : Logged (List String) :=
  let compiled := r.compile
  match compiled.result with
  | .ok c => ⟨compiled.log ++ c.report, .ok c.statements⟩
  | .error e => ⟨compiled.log, .error e⟩

/-- Compiles the graph to a script and reports on the outcome. -/
def toScript (r : Registry) : Logged String :=
  let generated := r.generate
  ⟨generated.log, generated.result.map Sql.script⟩

end Registry

end AccessGraph
