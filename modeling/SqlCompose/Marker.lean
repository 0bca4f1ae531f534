/-
  SqlCompose.Marker

  Markers stand in the text of a statement for the values that are bound to it.
  There are two ways to spell them: by position, `$1`, `$2`, ..., or as `?` for
  every value.
-/
import SqlCompose.Error
import SqlCompose.Json.Basic
import SqlCompose.Text.Blank

namespace SqlCompose

/-- How markers are spelled. -/
inductive MarkerStyle where
  /-- A dollar sign and the position of the value, counted from one. -/
  | positional
  /-- A question mark. -/
  | anonymous
deriving DecidableEq, Inhabited

namespace MarkerStyle

/-- The marker of the value at `position`, counted from one. -/
def marker (style : MarkerStyle) (position : Nat) : String :=
  match style with
  | .positional => "$" ++ toString position
  | .anonymous => "?"

/-- The canonical name of a style. -/
def name : MarkerStyle → String
  | .positional => "positional"
  | .anonymous => "anonymous"

/-- The style with the given name or mark. Blanks around it and the case of ASCII
    letters do not matter. -/
def parse (s : String) : Except ComposeError MarkerStyle :=
  let key := String.ofList ((Text.trimBlanks s.toList).map Char.toLower)
  if key = "$" ∨ key = "positional" then .ok .positional
  else if key = "?" ∨ key = "anonymous" then .ok .anonymous
  else .error (.badSetting ("unknown placeholder style '" ++ key ++
    "' (expected \"positional\" or \"anonymous\")"))

/-- Reading back a name gives its style. -/
theorem parse_name (style : MarkerStyle) : parse style.name = .ok style := by
  cases style <;> rfl

/-- A style from JSON data: the string that names it. -/
def ofJson : Json → Except DecodeError MarkerStyle
  | .string s => (parse s).mapError .invalid
  | _ => .error .wrongShape

/-- A style as JSON data. -/
def toJson (style : MarkerStyle) : Json := .string style.name

end MarkerStyle

end SqlCompose
