import AccessGraph.Sql.Literal

/-!
# Rows to insert

A row is a table with an expression for each column.  It is laid out with one expression a line, or
with all of them in one line.
-/

namespace AccessGraph.Sql

/-- A row to insert: a table, and the columns with their expressions. -/
structure Row where
  table : String
  cells : List (String × String)

namespace Row

/-- The part of the statement in front of the expressions. -/
def head (r : Row) : String :=
  "INSERT INTO " ++ r.table ++ " (" ++ String.intercalate ", " (r.cells.map Prod.fst)
    ++ ")\nVALUES ("

/-- The statement without its end, with all expressions in one line. -/
def inline (r : Row) : String :=
  r.head ++ String.intercalate ", " (r.cells.map Prod.snd) ++ ")"

/-- The statement with one expression a line. -/
def spread (r : Row) : String :=
  "\n" ++ r.head ++ "\n  " ++ String.intercalate ",\n  " (r.cells.map Prod.snd) ++ "\n);"

/-- The statement that inserts the row unless it is there already. -/
def link (r : Row) : String := "\n" ++ r.inline ++ "\nON CONFLICT DO NOTHING;"

end Row

end AccessGraph.Sql
