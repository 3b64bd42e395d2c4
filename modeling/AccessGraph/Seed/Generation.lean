import AccessGraph.Compilation.Script
import AccessGraph.Preset.Basic
import AccessGraph.Seed.Settings
import AccessGraph.Text.Path

/-!
# Generation of the seed

The seed is the script of a ready-made graph, written to a file.  Nothing is written before the
graph is built, validated if asked for, and compiled; so a run that fails leaves the file as it was.
The file is modelled by its contents, absent if there is none.
-/

namespace AccessGraph.Seed

/-- What to generate, and where to write it. -/
structure Request where
  template : String
  outputPath : String
  root : Option String
  strict : Bool
  deriving DecidableEq, Repr

/-- How many entities of each kind a registry holds. -/
def census (r : Registry) : String :=
  Text.natText r.permissions.size ++ " permissions, " ++ Text.natText r.groups.size
    ++ " groups, " ++ Text.natText r.roles.size ++ " roles, " ++ Text.natText r.accounts.size
    ++ " accounts"

/-- An informational record. -/
def info (text : String) : LogRecord := ⟨.info, text⟩

/-- The record of the start. -/
def startRecord (template : String) : LogRecord := info ("Building '" ++ template ++ "' policy...")

/-- The record of a validation that passed. -/
def validRecord : LogRecord := info "Policy graph validated"

/-- The record of the writing. -/
def writtenRecord (path : String) (r : Registry) : LogRecord :=
  info ("Seed written to " ++ Text.simplePath path ++ ": " ++ census r)

/-- Validates a graph if asked for. -/
def checkGraph (strict : Bool) (r : Registry) : Logged Unit :=
  if strict then
    match r.validate with
    | .ok () => ⟨[validRecord], .ok ()⟩
    | .error e => ⟨[], .error e⟩
  else ⟨[], .ok ()⟩

/-- Compiles a graph to the script that is to be written to the given path. -/
def writeGraph (path : String) (r : Registry) : Logged String :=
  let compiled := r.toScript
  match compiled.result with
  | .ok script => ⟨compiled.log ++ [writtenRecord path r], .ok script⟩
  | .error e => ⟨compiled.log, .error e⟩

/-- The script that a request asks for. -/
def generate (names : Names) (q : Request) : Logged String :=
  let started := startRecord q.template
  match Preset.buildNamed q.template q.root names with
  | .error e => ⟨[started], .error e⟩
  | .ok r =>
    let checked := checkGraph q.strict r
    match checked.result with
    | .error e => ⟨started :: checked.log, .error e⟩
    | .ok () =>
      let written := writeGraph q.outputPath r
      ⟨started :: checked.log ++ written.log, written.result⟩

/-- The contents of the output file after a run. -/
def fileAfter (before : Option String) : Except Error String → Option String
  | .ok script => some script
  | .error _ => before

/-- What a run from the command line comes to. -/
structure Outcome where
  exitCode : Nat
  threshold : Threshold
  script : Option String
  log : List LogRecord
  deriving DecidableEq, Repr

/-- The request that settings make. -/
def Request.ofSettings (s : Settings) : Request :=
  ⟨s.seedTemplate, s.outputPath, s.rootAccountId, s.strictValidation⟩

/-- The record that concludes a run. -/
def concludingRecord : Except Error String → LogRecord
  | .ok _ => info "Seed generation completed successfully!"
  | .error e => ⟨.error, "Error during seed generation: " ++ e.message⟩

/-- Runs with settings at a threshold.  The log holds the records that pass it. -/
def runAt (threshold : Threshold) (s : Settings) : Outcome :=
  let generated := generate s.names (.ofSettings s)
  { exitCode := if generated.result.toOption.isSome then 0 else 1
    threshold
    script := generated.result.toOption
    log := threshold.select (generated.log ++ [concludingRecord generated.result]) }

/-- Runs with settings, unless their level of log names no threshold; nothing is done then. -/
def run (s : Settings) : Except ThresholdFault Outcome :=
  (Threshold.ofName s.logLevel).map fun threshold => runAt threshold s

end AccessGraph.Seed
