import AccessGraph.Entity.Row

/-!
# Errors

Everything that can go wrong when a graph is built, validated or compiled, by its cause.
`Error.message` words it; `Error.fields` names the fields that an invalid configuration offends in.
-/

namespace AccessGraph

/-- Which of the two schema names is meant. -/
inductive SchemaField where
  | schema | auth
  deriving DecidableEq, Repr

/-- The name of the field. -/
def SchemaField.name : SchemaField → String
  | .schema => "schema_name"
  | .auth => "auth_schema_name"

/-- A reference that an entity holds: who refers to what. -/
structure Reference where
  ownerKind : Kind
  ownerId : Identifier
  targetKind : Kind
  targetId : Value

/-- What can go wrong. -/
inductive Error where
  /-- A configuration of the given subject breaks its schema. -/
  | invalid (subject : String) (issues : List Issue)
  | settingKey
  | settingValue
  | accountId
  | schemaName (field : SchemaField) (name : String)
  | unknownPreset (name : String) (known : List String)
  | duplicateId (kind : Kind) (id : Identifier)
  | duplicateName (kind : Kind) (name : String)
  | notFound (kind : Kind) (id : Identifier)
  /-- A reference to an entity that is not registered. -/
  | dangling (reference : Reference)
  /-- An entity failed to emit while the graph was compiled. -/
  | compilation (cause : Failure)
  /-- An entity failed to emit on its own. -/
  | emission (cause : Failure)
  /-- An entity that is no account emitted a list where one statement is due. -/
  | listOfStatements

/-- The sentence about an identifier, as it is shown, that is not registered. -/
def notFoundMessage (kind : Kind) (id : String) : String :=
  kind.noun ++ " with ID '" ++ id ++ "' not found"

namespace Error

/-- What went wrong, in words. -/
def message : Error → String
  | .invalid subject issues => "Invalid " ++ subject ++ " configuration: " ++ issuesText issues
  | .settingKey => "System setting key must be a non-empty string"
  | .settingValue => "System setting value must be a string"
  | .accountId => "Account id must be a non-empty string"
  | .schemaName field name => "Invalid " ++ field.name ++ ": '" ++ name ++ "'"
  | .unknownPreset name known =>
    "Unknown seed template '" ++ name ++ "'. Available: " ++ commaSeparated known
  | .duplicateId kind id => kind.noun ++ " with ID '" ++ id.shown ++ "' already exists"
  | .duplicateName kind name => kind.noun ++ " name with ID '" ++ name ++ "' already exists"
  | .notFound kind id => notFoundMessage kind id.shown
  | .dangling r =>
    r.ownerKind.noun ++ " '" ++ r.ownerId.shown ++ "' references non-existent "
      ++ r.targetKind.innerNoun ++ " '" ++ r.targetId.display ++ "'"
  | .compilation cause => "Error generating SQL: " ++ cause.message
  | .emission cause => cause.message
  | .listOfStatements => "'list' object has no attribute 'strip'"

/-- The offending fields of an invalid configuration. -/
def fields : Error → List String
  | .invalid _ issues => issues.map Issue.pathText
  | .settingKey => ["key"]
  | .settingValue => ["value"]
  | .accountId => ["id"]
  | .schemaName field _ => [field.name]
  | .unknownPreset _ _ => ["seed_template"]
  | _ => []

end Error

end AccessGraph
