/-
  SqlCompose.Statement

  A finished statement: its text, and the values for its markers in order.
-/
import SqlCompose.Value.Basic

namespace SqlCompose

/-- The text of a statement and the values that are bound to its markers. -/
structure Statement where
  sql : String
  values : Array Value
deriving BEq

/-- The JSON form of a statement. -/
def Statement.toJson (s : Statement) : Json :=
  .object [("sql", .string s.sql), ("values", .array (s.values.toList.map Value.toJson))]

end SqlCompose
