import AccessGraph.Calendar.Reading
import AccessGraph.Value.Display

/-!
# Issues found in a configuration

An issue is the path of an offending field and the cause of the offence.  A check yields a value or
every issue found, in the order of the fields; `Checked` combines checks so that a second one runs
whatever the first one finds, while `Checked.andThen` runs its second check only on a value.
-/

namespace AccessGraph

/-- What is wrong with a part of a configuration. -/
inductive Cause where
  /-- A required field is absent. -/
  | missing
  | notText
  /-- Bytes that are no UTF-8 text. -/
  | notUtf8
  | tooShort (least : Nat)
  | tooLong (most : Nat)
  /-- Not one of the enumerated words. -/
  | notOneOf (words : List String)
  | notDictionary
  | notInteger
  | below (least : Int)
  | above (most : Int)
  | notFlag
  /-- Of a kind that may denote a truth value, without denoting one. -/
  | unclearFlag
  | moment (fault : MomentFault)
  /-- Neither a dictionary nor an instance of the schema. -/
  | notInstance (schema : Schema)
  /-- Neither a dictionary nor anything that has fields. -/
  | notObject
  /-- No field tells the kind of permission. -/
  | noTag (field : String)
  | unknownTag (field shown : String) (known : List String)
  | mixedAwareness
  | windowOrder
  | storageLocation (key : String)

namespace Cause

/-- A word between single quotes. -/
def mark (word : String) : String := "'" ++ word ++ "'"

/-- Words between quotes, with commas and an `or` before the last one. -/
def alternatives : List String → String
  | [] => ""
  | [w] => mark w
  | [v, w] => mark v ++ " or " ++ mark w
  | v :: ws => mark v ++ ", " ++ alternatives ws

/-- A count of characters. -/
def characters (n : Nat) : String :=
  Text.natText n ++ (if n = 1 then " character" else " characters")

/-- What is wrong, in words. -/
def message : Cause → String
  | .missing => "Field required"
  | .notText => "Input should be a valid string"
  | .notUtf8 => "Input should be a valid string, unable to parse raw data as a unicode string"
  | .tooShort n => "String should have at least " ++ characters n
  | .tooLong n => "String should have at most " ++ characters n
  | .notOneOf words => "Input should be " ++ alternatives words
  | .notDictionary => "Input should be a valid dictionary"
  | .notInteger => "Input should be a valid integer"
  | .below n => "Input should be greater than or equal to " ++ Text.intText n
  | .above n => "Input should be less than or equal to " ++ Text.intText n
  | .notFlag => "Input should be a valid boolean"
  | .unclearFlag => "Input should be a valid boolean, unable to interpret input"
  | .moment fault => fault.message
  | .notInstance schema => "Input should be a valid dictionary or instance of " ++ schema.name
  | .notObject => "Input should be a valid dictionary or object to extract fields from"
  | .noTag field => "Unable to extract tag using discriminator " ++ mark field
  | .unknownTag field shown known =>
    "Input tag " ++ mark shown ++ " found using " ++ mark field
      ++ " does not match any of the expected tags: " ++ commaSeparated (known.map mark)
  | .mixedAwareness =>
    "Value error, valid_from and valid_until must both be timezone-aware or both naive"
  | .windowOrder => "Value error, valid_from must be earlier than valid_until"
  | .storageLocation key => "Value error, metadata." ++ key ++ " is required for storage scope"

end Cause

/-- A cause at a path of field names. -/
structure Issue where
  path : List String
  cause : Cause

namespace Issue

/-- The path as a text; the configuration as a whole has a name of its own. -/
def pathText (i : Issue) : String :=
  if i.path.isEmpty then "__root__" else String.intercalate "." i.path

/-- The path and what is wrong there. -/
def text (i : Issue) : String := i.pathText ++ ": " ++ i.cause.message

end Issue

/-- The texts of issues in one line. -/
def issuesText (issues : List Issue) : String := String.intercalate "; " (issues.map Issue.text)

/-- The result of a check: a value, or the issues found. -/
inductive Checked (α : Type) where
  | ok (value : α)
  | bad (issues : List Issue)

namespace Checked

/-- The issues found; a value has none. -/
def issues {α : Type} : Checked α → List Issue
  | .ok _ => []
  | .bad is => is

/-- The value, if there is one. -/
def value? {α : Type} : Checked α → Option α
  | .ok a => some a
  | .bad _ => none

/-- Fails with one cause at the place of the check itself. -/
def fail {α : Type} (cause : Cause) : Checked α := .bad [⟨[], cause⟩]

/-- Applies a function to the value. -/
def map {α β : Type} (f : α → β) : Checked α → Checked β
  | .ok a => .ok (f a)
  | .bad is => .bad is

/-- Both checks together; the issues of both are reported. -/
def both {α β : Type} : Checked (α → β) → Checked α → Checked β
  | .ok f, .ok a => .ok (f a)
  | .ok _, .bad is => .bad is
  | .bad is, .ok _ => .bad is
  | .bad is, .bad js => .bad (is ++ js)

instance : Applicative Checked where
  pure := .ok
  seq f x := both f (x ())

/-- A second check on the value of the first. -/
def andThen {α β : Type} (c : Checked α) (f : α → Checked β) : Checked β :=
  match c with
  | .ok a => f a
  | .bad is => .bad is

/-- The check of a part: the paths of its issues start with the name of the part. -/
def under {α : Type} (part : String) : Checked α → Checked α
  | .ok a => .ok a
  | .bad is => .bad (is.map fun i => { i with path := part :: i.path })

/-- What two checks object to together, the first one's issues first. -/
theorem issues_both {α β : Type} (f : Checked (α → β)) (x : Checked α) :
    (both f x).issues = f.issues ++ x.issues := by
  cases f <;> cases x <;> simp [both, issues]

end Checked

end AccessGraph
