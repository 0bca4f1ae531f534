/-
  SqlCompose.Fragment.Clauses

  The clauses of a statement, built from what they are about. Building a clause
  can be refused, and every refusal is reported once: a clause needs something to
  be about, and the columns of a SELECT list have to be identifiers, because they
  are written into the text and cannot be bound.
-/
import SqlCompose.Event
import SqlCompose.Fragment.Basic
import SqlCompose.Identifier.Reader

namespace SqlCompose.Fragment

/-- The WHERE clause over the conjunction of the conditions. A single fragment is
    the condition itself and gets no parentheses of its own. -/
def whereClause : List Condition → Logged Fragment
  | [] => Logged.refuse .noCondition
  | [.fragment f] => return .filtered f
  | conditions => return .filtered (Condition.and conditions)

/-- The columns of a row to insert and their values. -/
def insertRow (m : ColumnMap) : Logged Fragment :=
  if m.present.isEmpty then Logged.refuse .noColumn else return .row m.present

/-- The SET clause with the columns that have a value. -/
def assign (m : ColumnMap) : Logged Fragment :=
  if m.present.isEmpty then Logged.refuse .noAssignment else return .assignments m.present

/-- The bound on the number of rows. -/
def limit (rows : Option Int64) : Fragment := .bound .limit rows

/-- The number of rows to pass over. -/
def offset (rows : Option Int64) : Fragment := .bound .offset rows

/-! ## SELECT -/

/-- `column` without the `.*` at its end. -/
def tableOf? (column : String) : Option String :=
  let cs := column.toList
  if ['.', '*'] <:+ cs then some (String.ofList (cs.take (cs.length - 2))) else none

/-- The text of a column of a SELECT list: a star, every column of a table, or an
    identifier. -/
def columnText (column : String) : Except ComposeError String :=
  if column = "*" then .ok column
  else match tableOf? column with
    | some table => (Identifier.parse table).map fun i => i.sql ++ ".*"
    | none => (Identifier.parse column).map Identifier.sql

/-- The texts of the columns, up to the first that is none. -/
def columnTexts : List String → Except ComposeError (List String)
  | [] => .ok []
  | column :: rest => do
    let text ← columnText column
    let texts ← columnTexts rest
    return text :: texts

/-- The SELECT list with the given columns. -/
def select (columns : List String) : Logged Fragment := do
  let texts ← Logged.ofExcept (columnTexts columns)
  if texts.isEmpty then
    Logged.refuse (.invalidIdentifier "select list cannot be empty")
  else return .text ("SELECT " ++ ", ".intercalate texts)

end SqlCompose.Fragment
