import AccessGraph.Preset.Saas
import AccessGraph.Preset.SmallTeam
import AccessGraph.Preset.Solo
import AccessGraph.Preset.Starter

/-!
# Ready-made graphs

Four graphs can be built by name, each with a root account of choice.  A graph is built by running
its plan, on a fresh registry or on one that holds entities already.
-/

namespace AccessGraph

/-- The ready-made graphs. -/
inductive Preset where
  | solo | smallTeam | starter | saas
  deriving DecidableEq, Repr

namespace Preset

/-- The ready-made graphs, in the alphabetical order of their names. -/
def values : List Preset := [.saas, .smallTeam, .solo, .starter]

/-- The name of a ready-made graph. -/
def name : Preset → String
  | .solo => "solo"
  | .smallTeam => "small_team"
  | .starter => "starter"
  | .saas => "saas"

/-- The ready-made graph of the given name. -/
def ofName? (s : String) : Option Preset := values.find? (·.name = s)

/-- The ready-made graph of the given name, or the error that tells the known names. -/
def ofName (s : String) : Except Error Preset :=
  match ofName? s with
  | some p => .ok p
  | none => .error (.unknownPreset s (values.map name))

/-- The root account in the place of an absent or empty one. -/
def defaultRoot : Preset → String
  | .starter => Starter.sampleRoot
  | _ => rootAccount

/-- The commands that build a graph. -/
def plan (p : Preset) (root : Option String) : List Command :=
  let root := orDefault p.defaultRoot root
  match p with
  | .solo => Solo.plan root
  | .smallTeam => SmallTeam.plan root
  | .starter => Starter.plan root
  | .saas => Saas.plan root

/-- Builds a graph in a registry; tells the error with the registry reached. -/
def buildInto (p : Preset) (root : Option String) (r : Registry) : Registry × Option Error :=
  r.run (p.plan root)

/-- Builds a graph in a fresh registry. -/
def build (p : Preset) (root : Option String) (names : Names) : Except Error Registry := do
  match p.buildInto root (← Registry.create names none none) with
  | (r, none) => .ok r
  | (_, some e) => .error e

/-- Builds the graph of the given name in a fresh registry. -/
def buildNamed (name : String) (root : Option String) (names : Names) : Except Error Registry := do
  (← ofName name).build root names

/-- A preset is found under its own name. -/
theorem ofName?_name (p : Preset) : ofName? p.name = some p := by cases p <;> decide

end Preset

end AccessGraph
