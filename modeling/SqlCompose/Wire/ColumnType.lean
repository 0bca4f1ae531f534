/-
  SqlCompose.Wire.ColumnType

  The types that a database gives to the parameters of a statement. A type is one
  of the built-in ones, known by its name, or a simple type that was added to the
  database, known by its schema and name; an added type is never equal to a
  built-in one, whatever it is called.
-/

namespace SqlCompose

/-- The type of a parameter. -/
inductive ColumnType where
  /-- A built-in type. -/
  | builtin (typeName : String)
  /-- A type that was added to the database. -/
  | custom (schema typeName : String)
deriving DecidableEq

namespace ColumnType

/-- The name of a type, without its schema. -/
def name : ColumnType → String
  | .builtin typeName => typeName
  | .custom _ typeName => typeName

/-- A type as it is shown: with its schema, unless that is one that is always
    searched. -/
def shown : ColumnType → String
  | .builtin typeName => typeName
  | .custom schema typeName =>
    if schema = "public" ∨ schema = "pg_catalog" then typeName else schema ++ "." ++ typeName

/-- The built-in types that take text. -/
def textTypes : List ColumnType :=
  [.builtin "text", .builtin "varchar", .builtin "bpchar", .builtin "name", .builtin "unknown"]

/-- The names of the label path types, whose text form starts with a version byte. -/
def labelPathNames : List String := ["ltree", "lquery", "ltxtquery"]

/-- Whether the type takes text: a built-in text type, or one with the name of the
    case-insensitive text type or of a label path type. -/
def takesText (ty : ColumnType) : Bool :=
  textTypes.contains ty || ty.name == "citext" || labelPathNames.contains ty.name

/-- Whether the type takes JSON. -/
def takesJson (ty : ColumnType) : Bool :=
  ty == .builtin "json" || ty == .builtin "jsonb"

end ColumnType

end SqlCompose
