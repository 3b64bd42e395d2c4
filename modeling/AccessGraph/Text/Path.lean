/-!
# Paths

A path is shown in its simplest spelling: empty parts and parts that are a single dot are left out,
and of the slashes in front one remains, or two if there are exactly two.  The parent of a path is
what remains without its last part.
-/

namespace AccessGraph.Text

/-- The parts of a path that lead somewhere. -/
def pathParts (path : String) : List String :=
  (path.splitOn "/").filter fun part => part ≠ "" && part ≠ "."

/-- The slashes that a path starts with, in the simplest spelling. -/
def pathRoot (path : String) : String :=
  match (path.toList.takeWhile (· == '/')).length with
  | 0 => ""
  | 2 => "//"
  | _ => "/"

/-- A path of the given root and parts; a path without either is a dot. -/
def joinPath (root : String) (parts : List String) : String :=
  if root.isEmpty && parts.isEmpty then "." else root ++ String.intercalate "/" parts

/-- The simplest spelling of a path. -/
def simplePath (path : String) : String := joinPath (pathRoot path) (pathParts path)

/-- The path without its last part. -/
def parentPath (path : String) : String := joinPath (pathRoot path) (pathParts path).dropLast

end AccessGraph.Text
