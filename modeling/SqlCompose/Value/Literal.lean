/-
  SqlCompose.Value.Literal

  Values as SQL literals, for logs and for reading by people. A composed statement
  never holds a literal of a bound value. Text and JSON stand between single
  quotes, with every single quote inside written twice, so no content can end the
  literal early.
-/
import SqlCompose.Value.Basic
import SqlCompose.Json.Writer
import SqlCompose.Text.Quoted

namespace SqlCompose.Value

/-- Literals write every number out, a whole one without a point; of two shortest
    decimals equally near, the larger one is written. -/
def layout : Layout where
  tie := .up
  writtenOut _ := true
  whole := ""

/-- A floating-point number as a literal. -/
def floatLiteral (x : Double) : String :=
  if x.isNaN then "NaN"
  else if x.isFinite then layout.text x
  else if x.negative then "-inf" else "inf"

/-- The value as a literal. -/
def literal : Value → String
  | .null => "NULL"
  | .bool b => if b then "true" else "false"
  | .int n => toString n.toInt
  | .float x => floatLiteral x
  | .text s => Text.quoted '\'' s
  | .json j => Text.quoted '\'' j.compact

end SqlCompose.Value
