import AccessGraph.Seed.Generation

/-!
# The command line

Reads the settings from the environment, generates the seed and writes it to the output file.  The
log goes to the standard error stream.  The exit code tells whether a seed was written.
-/

namespace AccessGraph

/-- The variables of the environment that make settings, by their names in lower and in upper
case. -/
def environment : IO (List (String × String)) := do
  let names := Settings.fieldNames ++ Settings.fieldNames.map String.toUpper
  names.filterMapM fun name => do return (← IO.getEnv name).map (name, ·)

/-- Writes a record of the log. -/
def writeRecord (r : LogRecord) : IO Unit :=
  IO.eprintln ("[" ++ r.level.name ++ "] " ++ r.text)

/-- Writes the script to the output file, whose directory is made if needed. -/
def writeScript (path script : String) : IO Unit := do
  IO.FS.createDirAll (Text.parentPath path)
  IO.FS.writeFile (Text.simplePath path) script

/-- Generates the seed that settings ask for. -/
def generateSeed (s : Settings) : IO UInt32 := do
  match Seed.run s with
  | .error fault =>
    IO.eprintln fault.message
    return 1
  | .ok outcome =>
    if let some script := outcome.script then writeScript s.outputPath script
    outcome.log.forM writeRecord
    return outcome.exitCode.toUInt32

end AccessGraph

open AccessGraph in
/-- Generates the seed, unless the settings are refused. -/
def main : IO UInt32 := do
  match Settings.ofTexts (← environment) with
  | .ok s => generateSeed s
  | .bad issues =>
    IO.eprintln (issuesText issues)
    return 1
