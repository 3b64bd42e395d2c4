import AccessGraph.Main
import AccessGraph.Session
import AccessGraph.Proofs.Lists
import AccessGraph.Proofs.Outcome
import AccessGraph.Proofs.Text.Digits
import AccessGraph.Proofs.Calendar.Date
import AccessGraph.Proofs.Calendar.Iso
import AccessGraph.Proofs.Sql.Scanner
import AccessGraph.Proofs.Sql.Expression
import AccessGraph.Proofs.Sql.Insertion
import AccessGraph.Proofs.Sql.TypedRow
import AccessGraph.Proofs.Config.Reading
import AccessGraph.Proofs.Config.Constraints
import AccessGraph.Proofs.Registry.Reachable
import AccessGraph.Proofs.Entity.Content
import AccessGraph.Proofs.Entity.Rows
import AccessGraph.Proofs.Entity.Fidelity
import AccessGraph.Proofs.Entity.Keys
import AccessGraph.Proofs.Compilation.Sources
import AccessGraph.Proofs.Compilation.References
import AccessGraph.Proofs.Compilation.Statements
import AccessGraph.Proofs.Compilation.Integrity
import AccessGraph.Proofs.Compilation.NaturalKeys
import AccessGraph.Proofs.Compilation.StrictValidation
import AccessGraph.Proofs.Calendar.Range
import AccessGraph.Proofs.Calendar.Order
import AccessGraph.Proofs.Sql.Timestamp
import AccessGraph.Proofs.Json.Reader
import AccessGraph.Proofs.Json.Groups
import AccessGraph.Proofs.Json.Strings
import AccessGraph.Proofs.Json.Numbers
import AccessGraph.Proofs.Json.Values
import AccessGraph.Proofs.Json.RoundTrip
import AccessGraph.Proofs.Json.Printable
import AccessGraph.Proofs.Sql.Jsonb
import AccessGraph.Proofs.Sql.Escaping
import AccessGraph.Proofs.Compilation.Failures
import AccessGraph.Proofs.Registry.Growth
import AccessGraph.Proofs.Session.History
import AccessGraph.Proofs.Registry.Effects
import AccessGraph.Proofs.Session.Atomicity
import AccessGraph.Proofs.Compilation.Tasks
import AccessGraph.Proofs.Compilation.Monotone
import AccessGraph.Proofs.Registry.Interleaving
import AccessGraph.Proofs.Registry.Renaming
import AccessGraph.Proofs.Compilation.Renaming
import AccessGraph.Proofs.Compilation.Reporting
import AccessGraph.Proofs.Registry.Constraints
import AccessGraph.Proofs.Session.Constraints
import AccessGraph.Proofs.Config.Entries
import AccessGraph.Proofs.Config.Windows
import AccessGraph.Proofs.Registry.Windows
import AccessGraph.Proofs.Config.Instances
import AccessGraph.Proofs.Config.FixedPoints
import AccessGraph.Proofs.Config.Rules
import AccessGraph.Proofs.Config.Errors
import AccessGraph.Proofs.Registry.Readdressing
import AccessGraph.Proofs.Compilation.Complete
import AccessGraph.Proofs.Preset.Roots
import AccessGraph.Proofs.Registry.Appending
import AccessGraph.Proofs.Preset.Appending
import AccessGraph.Proofs.Registry.PermissionParts
import AccessGraph.Proofs.Registry.SchemaNames
import AccessGraph.Proofs.Seed.Writing
