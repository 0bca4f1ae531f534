/-
  SqlCompose.Error

  What can go wrong while a statement is composed, and what is said about it.
  Composition itself never inspects a value, so every error is about the shape of
  what was passed in or about text that had to be an identifier.
-/

namespace SqlCompose

/-- Why a statement, or a part of one, was refused. -/
inductive ComposeError where
  /-- Data that describes no condition. -/
  | invalidCondition (detail : String)
  /-- A WHERE clause over no condition at all. -/
  | noCondition
  /-- A row to insert without a column that has a value. -/
  | noColumn
  /-- An assignment list without a column that has a value. -/
  | noAssignment
  /-- Text that had to be an identifier and is none. -/
  | invalidIdentifier (detail : String)
  /-- Text segments that do not interleave with the fragments. -/
  | unevenSegments (segments fragments : Nat)
  /-- A setting with an unknown value. -/
  | badSetting (detail : String)
deriving DecidableEq

namespace ComposeError

/-- What is shown of an error. -/
def message : ComposeError → String
  | .invalidCondition detail => "Invalid query unit: " ++ detail
  | .noCondition => "Where clause cannot be empty"
  | .noColumn => "Data cannot be empty"
  | .noAssignment => "Set clause cannot be empty"
  | .invalidIdentifier detail => "Invalid identifier: " ++ detail
  | .unevenSegments segments fragments =>
    "Template has " ++ toString segments ++ " text segments for " ++ toString fragments ++
      " fillers (expected fillers + 1)"
  | .badSetting detail => "Config error: " ++ detail

/-- Whether the error is about data that describes no condition. -/
def isInvalidCondition : ComposeError → Bool
  | .invalidCondition _ => true
  | _ => false

end ComposeError

/-- Why JSON data could not be taken as a setting. -/
inductive DecodeError where
  /-- The data has the right shape and an unknown value. -/
  | invalid (cause : ComposeError)
  /-- The data has another shape than the setting. -/
  | wrongShape
deriving DecidableEq

end SqlCompose
