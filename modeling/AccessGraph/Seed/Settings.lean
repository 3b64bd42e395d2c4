import AccessGraph.Config.Field
import AccessGraph.Naming

/-!
# Settings

The settings of a run come from named texts, such as the variables of an environment.  Names are
compared in lower case and the last text of a name counts; names that are no setting are ignored.
Every setting has a default, and only the one that is a truth value can be refused.
-/

namespace AccessGraph

/-- The settings of a run. -/
structure Settings where
  appName : String
  environment : String
  logLevel : String
  schemaName : String
  authSchemaName : String
  seedTemplate : String
  rootAccountId : Option String
  outputPath : String
  strictValidation : Bool
  deriving DecidableEq, Repr

namespace Settings

/-- The settings of a run for which nothing is set. -/
def default : Settings :=
  ⟨"policy-compiler", "development", "INFO", "supamode", "auth", "solo", none,
    "supabase/seed.sql", true⟩

/-- The names of the settings. -/
def fieldNames : List String :=
  ["app_name", "environment", "log_level", "schema_name", "auth_schema_name", "seed_template",
   "root_account_id", "output_path", "strict_validation"]

/-- The last text given under a name. -/
def given? (texts : List (String × String)) (name : String) : Option String :=
  (texts.reverse.find? fun v => Text.asciiLower v.1 == name).map Prod.snd

/-- The settings that named texts make. -/
def ofTexts (texts : List (String × String)) : Checked Settings :=
  let text (name default : String) := (given? texts name).getD default
  -- The flag is the only setting that a text can be wrong for.
  let strict : Checked Bool :=
    match given? texts "strict_validation" with
    | some s => (Field.flagOfText s).under "strict_validation"
    | none => .ok default.strictValidation
  strict.map fun strict =>
    { appName := text "app_name" default.appName
      environment := text "environment" default.environment
      logLevel := text "log_level" default.logLevel
      schemaName := text "schema_name" default.schemaName
      authSchemaName := text "auth_schema_name" default.authSchemaName
      seedTemplate := text "seed_template" default.seedTemplate
      rootAccountId := given? texts "root_account_id"
      outputPath := text "output_path" default.outputPath
      strictValidation := strict }

/-- Whether the run is a productive one. -/
def isProduction (s : Settings) : Bool := s.environment == "production"

/-- The names of the schemas to write to. -/
def names (s : Settings) : Names := ⟨s.schemaName, s.authSchemaName⟩

end Settings

end AccessGraph
