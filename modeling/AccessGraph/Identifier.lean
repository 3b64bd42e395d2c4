import AccessGraph.Value.Basic

/-!
# Identifiers

An identifier is a text, and by this text it is registered, looked up and written.  It may be given
as a word of the vocabulary; messages then show it by the name of the constant, which is all that
`Identifier` keeps beside the text.
-/

namespace AccessGraph

/-- An identifier as it was given: a plain text, or a word that stands for its text. -/
inductive Identifier where
  | plain (s : String)
  | word (l : Label)
  deriving DecidableEq, Repr

/-- A text serves as an identifier as it is. -/
instance : Coe String Identifier := ⟨.plain⟩

namespace Identifier

/-- The text by which the identifier is registered and looked up. -/
def text : Identifier → String
  | .plain s => s
  | .word l => l.text

/-- The identifier as messages show it. -/
def shown : Identifier → String
  | .plain s => s
  | .word l => l.qualifiedName

/-- The identifier as a value. -/
def value : Identifier → Value
  | .plain s => .text s
  | .word l => .label l

/-- The identifier that a value is, if it is a text or a word. -/
def ofValue? : Value → Option Identifier
  | .text s => some (.plain s)
  | .label l => some (.word l)
  | _ => none

end Identifier

end AccessGraph
