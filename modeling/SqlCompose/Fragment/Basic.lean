/-
  SqlCompose.Fragment.Basic

  The pieces that statements are composed of. A `Fragment` is a piece of SQL with
  the values to bind in it; a `Condition` is an operand of a boolean group, which
  may turn out to contribute nothing; a `Step` is a step of a fragment that was
  written by hand.

  The three are data, built in full before anything is rendered. `Condition.and`
  and `Condition.or` build groups, and `ColumnMap.conditions` lists the comparisons
  that a column map stands for.
-/
import SqlCompose.Collector
import SqlCompose.ColumnMap

namespace SqlCompose

/-- How the conditions of a group are joined. -/
inductive Connective where
  | and
  | or
deriving DecidableEq

/-- What stands between two conditions of a group. -/
def Connective.separator : Connective → String
  | .and => " AND "
  | .or => " OR "

/-- A bound on the rows of a result. -/
inductive RowBound where
  | limit
  | offset
deriving DecidableEq

/-- The keyword of a bound. -/
def RowBound.keyword : RowBound → String
  | .limit => "LIMIT"
  | .offset => "OFFSET"

/-- What a comparison is made with. -/
inductive Operand where
  /-- One value. -/
  | value (v : Value)
  /-- A list of values. -/
  | list (vs : List Value)

mutual

/-- A piece of SQL with the values to bind in it. -/
inductive Fragment where
  /-- Text that binds nothing. -/
  | text (sql : String)
  /-- Conditions joined in parentheses. -/
  | group (connective : Connective) (conditions : List Condition)
  /-- A WHERE clause over a condition. -/
  | filtered (condition : Fragment)
  /-- A column list and the row of its values. -/
  | row (entries : List (String × Value))
  /-- A SET clause. -/
  | assignments (entries : List (String × Value))
  /-- A bound on the rows; none and zero stand for no bound. -/
  | bound (which : RowBound) (rows : Option Int64)
  /-- A fragment written by hand, step by step. -/
  | script (steps : List Step)

/-- An operand of a boolean group. -/
inductive Condition where
  /-- Text, used as it is. -/
  | text (sql : String)
  /-- A column and an operator, and what is compared; without an operand the
      condition contributes nothing. -/
  | comparison (head : String) (operand : Option Operand)
  /-- A comparison with `=` for every column that has a value. -/
  | columns (map : ColumnMap)
  /-- A fragment, usually a group. -/
  | fragment (f : Fragment)

/-- A step of a fragment that was written by hand. Every step appends its text to
    what the steps before it have written. -/
inductive Step where
  /-- Writes a text. -/
  | text (sql : String)
  /-- Binds a value and writes its marker. -/
  | bind (v : Value)
  /-- Binds a value and writes nothing. -/
  | bindSilently (v : Value)
  /-- Writes the number of values bound so far. -/
  | count
  /-- Writes the name of the style of the markers. -/
  | styleName
  /-- Writes a condition. -/
  | condition (c : Condition)
  /-- Writes another fragment. -/
  | fragment (f : Fragment)

end

/-- What a fragment is shown as where its content cannot be shown. -/
def Fragment.shown : String := "Filler(\"<fn>\")"

/-! ## Groups -/

/-- One comparison for every column of the map, in order; a column without a value
    has a comparison without an operand. -/
def ColumnMap.conditions (m : ColumnMap) : List Condition :=
  m.entries.toList.map fun (column, value) =>
    .comparison (column ++ " =") (value.map .value)

namespace Condition

/-- The conditions that a condition stands for in a conjunction: those of a column
    map, else itself. -/
def spliced : Condition → List Condition
  | .columns m => m.conditions
  | c => [c]

/-- The conjunction of the conditions. Column maps are spliced into it. -/
def and (conditions : List Condition) : Fragment :=
  .group .and (conditions.flatMap spliced)

/-- The disjunction of the conditions. A column map stays a conjunction of its own. -/
def or (conditions : List Condition) : Fragment := .group .or conditions

end Condition

end SqlCompose
