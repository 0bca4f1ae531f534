/-
  SqlCompose.Fragment.Render

  Rendering. A fragment renders to its text, and a condition to its text or to
  nothing, where empty text counts as nothing; on the way they bind their values
  in the order in which the markers appear. Conditions that render to nothing drop
  out of their group, and a group of which nothing is left is empty.

  The functions are mutually recursive on the structure of the fragment.
-/
import SqlCompose.Fragment.Basic
import SqlCompose.Statement

namespace SqlCompose

/-- A text that is to be dropped if it is empty. -/
def nonempty (sql : String) : Option String := if sql.isEmpty then none else some sql

/-- Parts joined in parentheses; without parts, nothing. -/
def Connective.join (connective : Connective) (parts : List String) : String :=
  if parts.isEmpty then "" else "( " ++ connective.separator.intercalate parts ++ " )"

/-! ## Comparisons -/

/-- The text of a comparison. A comparison with an empty list of values is one with
    a list that holds NULL, which no row meets. -/
def Operand.render (head : String) : Operand → Render String
  | .value v => do
    let marker ← Collector.bind v
    return head ++ " " ++ marker
  -- `IN ()` would be no valid SQL.
  | .list [] => return head ++ " ( NULL )"
  | .list vs => do
    let markers ← Collector.bindAll vs
    return head ++ " ( " ++ ", ".intercalate markers ++ " )"

/-- A comparison without an operand contributes nothing. -/
def Operand.renderOption (head : String) : Option Operand → Render (Option String)
  | none => return none
  | some operand => do
    let sql ← operand.render head
    return nonempty sql

/-- The comparisons of a column map that have a value. -/
def ColumnMap.renderEntries : List (String × Option Value) → Render (List String)
  | [] => return []
  | (column, value) :: rest => do
    let part ← Operand.renderOption (column ++ " =") (value.map .value)
    let parts ← renderEntries rest
    return part.toList ++ parts

/-! ## Clauses -/

/-- Every column with the marker of its value. -/
def renderAssignments : List (String × Value) → Render (List String)
  | [] => return []
  | (column, value) :: rest => do
    let marker ← Collector.bind value
    let parts ← renderAssignments rest
    return (column ++ " = " ++ marker) :: parts

/-- The column list and, in the same order, the list of markers. -/
def renderRow (entries : List (String × Value)) : Render String := do
  let markers ← Collector.bindAll (entries.map Prod.snd)
  return "(" ++ ", ".intercalate (entries.map Prod.fst) ++ ") VALUES (" ++
    ", ".intercalate markers ++ ")"

/-- A bound on the rows; none and zero are no bound. -/
def renderBound (which : RowBound) (rows : Option Int64) : Render String :=
  match rows.filter (· ≠ 0) with
  | none => return ""
  | some n => do
    let marker ← Collector.bind (.int n)
    return which.keyword ++ " " ++ marker

/-! ## Fragments -/

mutual

/-- The text of a fragment. -/
def Fragment.render : Fragment → Render String
  | .text sql => return sql
  | .group connective conditions => do
    let parts ← renderConditions conditions
    return connective.join parts
  | .filtered condition => do
    let sql ← condition.render
    return if sql.isEmpty then "" else "WHERE " ++ sql
  | .row entries => renderRow entries
  | .assignments entries => do
    let parts ← renderAssignments entries
    return "SET " ++ ", ".intercalate parts
  | .bound which rows => renderBound which rows
  | .script steps => renderSteps steps

/-- The text of a condition, or `none` if it contributes nothing. -/
def Condition.render : Condition → Render (Option String)
  | .text sql => return nonempty sql
  | .comparison head operand => Operand.renderOption head operand
  | .columns m => do
    let parts ← ColumnMap.renderEntries m.entries.toList
    return nonempty (Connective.and.join parts)
  | .fragment f => do
    let sql ← f.render
    return nonempty sql

/-- The texts of the conditions that contribute something. -/
def renderConditions : List Condition → Render (List String)
  | [] => return []
  | condition :: rest => do
    let part ← condition.render
    let parts ← renderConditions rest
    return part.toList ++ parts

/-- What a step writes. -/
def Step.render : Step → Render String
  | .text sql => return sql
  | .bind v => Collector.bind v
  | .bindSilently v => do
    let _ ← Collector.bind v
    return ""
  | .count => do
    let c ← get
    return toString c.values.size
  | .styleName => do
    let c ← get
    return c.style.name
  | .condition condition => do
    let sql ← condition.render
    return sql.getD "<none>"
  | .fragment f => f.render

/-- What the steps write, one after the other. -/
def renderSteps : List Step → Render String
  | [] => return ""
  | step :: rest => do
    let sql ← step.render
    let sqls ← renderSteps rest
    return sql ++ sqls

end

/-- The statement of what is rendered on a collector of its own. -/
def Render.build (style : MarkerStyle) (x : Render String) : Statement :=
  let (sql, c) := Collector.run { style } x
  ⟨sql, c.values⟩

/-- The statement that a fragment is on its own. -/
def Fragment.build (style : MarkerStyle) (f : Fragment) : Statement := Render.build style f.render

end SqlCompose
