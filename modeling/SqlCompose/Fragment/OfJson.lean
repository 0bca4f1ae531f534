/-
  SqlCompose.Fragment.OfJson

  Conditions from untyped JSON, such as a filter that a client sends.

    * `["column operator", value]` is a comparison; an array is a list of values.
    * An object is a comparison with `=` for each of its members.

  Nothing of the JSON reaches the text unchecked: a column has to be an identifier
  and an operator one of `operators`, and everything else is bound. Text on its own
  is refused. The first fault is the one that is reported (`Defect`), and it is
  reported once.
-/
import SqlCompose.Event
import SqlCompose.Fragment.Basic
import SqlCompose.Identifier.Reader
import SqlCompose.Json.Writer

namespace SqlCompose.Condition

/-! ## Faults -/

/-- Why a JSON value is no condition. -/
inductive Defect where
  /-- An array of other than two items. -/
  | notPair (items : List Json)
  /-- A pair whose first item is no string. -/
  | headNotText (head : Json)
  /-- A head of a single word. -/
  | missingOperator (head : String)
  /-- A head with an unknown operator. -/
  | unknownOperator (operator : String)
  /-- A column that is no identifier. -/
  | badColumn (name : String) (cause : ComposeError)
  /-- An array or an object where a scalar has to be. -/
  | notScalar (value : Json)
  /-- Text on its own. -/
  | rawSql (sql : String)
  /-- Any other scalar. -/
  | bareScalar (value : Json)

/-- What is said about a fault. -/
def Defect.message : Defect → String
  | .notPair items => "expected [prefix, value], got " ++ (Json.array items).compact
  | .headNotText head => "pair prefix must be a string, got " ++ head.compact
  | .missingOperator head =>
    "pair prefix " ++ Text.shown head ++ " must be \"column operator\""
  | .unknownOperator operator =>
    "unsupported operator " ++ Text.shown operator ++ " in pair prefix"
  | .badColumn name cause => "column " ++ Text.shown name ++ ": " ++ cause.message
  | .notScalar value => "expected a scalar, got " ++ value.compact
  | .rawSql sql => "raw SQL is not accepted from JSON: " ++ Text.shown sql
  | .bareScalar value => value.compact

/-! ## Parts -/

/-- The operators that a comparison may have. -/
def operators : List String :=
  ["=", "<>", "!=", "<", "<=", ">", ">=", "LIKE", "NOT LIKE", "ILIKE", "NOT ILIKE", "IN",
    "NOT IN", "IS", "IS NOT", "IS DISTINCT FROM", "IS NOT DISTINCT FROM"]

/-- The text of a column, which has to be an identifier. -/
def readColumn (name : String) : Except Defect String :=
  match Identifier.parse name with
  | .ok identifier => .ok identifier.sql
  | .error cause => .error (.badColumn name cause)

/-- An operator in its canonical spelling: one space between its words, and upper
    case. -/
def canonicalOperator (cs : List Char) : String :=
  String.ofList ((" ".intercalate ((Text.words cs).map String.ofList)).toList.map Char.toUpper)

/-- The head of a comparison, `column operator`, in its canonical spelling. The
    column ends at the first blank. -/
def readHead (head : String) : Except Defect String :=
  let trimmed := Text.trimBlanks head.toList
  match Text.cutAtBlank trimmed with
  | none => .error (.missingOperator (String.ofList trimmed))
  | some (column, rest) =>
    -- The operator is looked at first, so it is what is reported if both are wrong.
    let operator := canonicalOperator rest
    if operators.contains operator then
      (readColumn (String.ofList column)).map fun column => column ++ " " ++ operator
    else .error (.unknownOperator operator)

/-- A scalar as a value. -/
def readScalar (j : Json) : Except Defect Value :=
  if j.isScalar then .ok (Value.ofJson j) else .error (.notScalar j)

/-- The scalars of a list as values, up to the first item that is none. -/
def readScalars : List Json → Except Defect (List Value)
  | [] => .ok []
  | j :: rest => do
    let v ← readScalar j
    let vs ← readScalars rest
    return v :: vs

/-- What a comparison is made with: a list, or any other value. -/
def readOperand : Json → Except Defect Operand
  | .array items => (readScalars items).map .list
  | j => .ok (.value (Value.ofJson j))

/-- Assigns the members of an object to their columns, from first to last. -/
def readMembers (m : ColumnMap) : List (String × Json) → Except Defect ColumnMap
  | [] => .ok m
  | (key, j) :: rest => do
    let column ← readColumn key
    let v ← readScalar j
    readMembers (m.assign column v) rest

/-! ## Conditions -/

/-- The condition that a JSON value describes, or the first fault in it. -/
def read : Json → Except Defect Condition
  -- The head is read before the operand, and the first fault counts.
  | .array [.string head, value] => do
    let head ← readHead head
    let operand ← readOperand value
    return .comparison head (some operand)
  | .array [head, _] => .error (.headNotText head)
  | .array items => .error (.notPair items)
  | .object members => (readMembers .empty members).map .columns
  | .string sql => .error (.rawSql sql)
  | j => .error (.bareScalar j)

/-- The condition that a JSON value describes; a fault is reported. -/
def ofJson (j : Json) : Logged Condition :=
  match read j with
  | .ok condition => return condition
  | .error defect => Logged.refuse (.invalidCondition defect.message)

end SqlCompose.Condition
