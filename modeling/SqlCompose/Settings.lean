/-
  SqlCompose.Settings

  Settings of an application: how markers are spelled, whether every composed
  statement is reported, and how much of its text. Composing with settings gives
  the statement that composing without them gives; what the settings add is one
  event.
-/
import SqlCompose.Template
import SqlCompose.Text.Cut

namespace SqlCompose

/-- How statements are composed and reported. -/
structure Settings where
  style : MarkerStyle := .positional
  /-- Whether every composed statement is reported. -/
  reporting : Bool := true
  /-- The most bytes of a text that are reported; `none` is no limit. -/
  reportLimit : Option UInt64 := some 200
deriving DecidableEq

namespace Settings

/-! ## JSON -/

/-- The names of the settings, in their order. -/
def names : List String := ["style", "trace", "max_sql_length"]

/-- Sets what a member of a JSON object is about. Other members are ignored. -/
def setMember (s : Settings) : String × Json → Except DecodeError Settings
  | ("style", j) => (MarkerStyle.ofJson j).map fun style => { s with style }
  | ("trace", .bool reporting) => .ok { s with reporting }
  | ("trace", _) => .error .wrongShape
  | ("max_sql_length", .null) => .ok { s with reportLimit := none }
  | ("max_sql_length", .number (.whole n _)) =>
    if 0 ≤ n then .ok { s with reportLimit := some (UInt64.ofNat n.toNat) }
    else .error .wrongShape
  | ("max_sql_length", _) => .error .wrongShape
  | _ => .ok s

/-- Sets what the members are about, from first to last. -/
def setMembers (s : Settings) : List (String × Json) → Except DecodeError Settings
  | [] => .ok s
  | m :: rest =>
    match s.setMember m with
    | .ok s => setMembers s rest
    | .error e => .error e

/-- Settings from JSON data: an object with any of the settings, or an array with
    the first of them in their order. What is not given has its default. -/
def ofJson : Json → Except DecodeError Settings
  | .object members => setMembers {} members
  | .array items => do
    let s ← setMembers {} (names.zip items)
    -- Items beyond the last setting are a fault of shape, behind any fault of the others.
    if items.length ≤ names.length then return s else throw .wrongShape
  | _ => .error .wrongShape

/-- The JSON form of a limit. -/
def limitToJson : Option UInt64 → Json
  | none => .null
  | some bytes => .number (.whole bytes.toNat (by have := bytes.toNat_lt; omega))

/-- The JSON form of settings. -/
def toJson (s : Settings) : Json :=
  .object
    [("style", s.style.toJson),
     ("trace", .bool s.reporting),
     ("max_sql_length", limitToJson s.reportLimit)]

/-! ## Composing -/

/-- A collector with the style of the settings. -/
def collector (s : Settings) : Collector := { style := s.style }

/-- The text of a statement as it is reported. -/
def reportedSql (s : Settings) (sql : String) : String :=
  match s.reportLimit with
  | none => sql
  | some bytes => Text.abbreviate bytes.toNat sql

/-- Reports a statement if the settings ask for it. -/
def report (s : Settings) (statement : Statement) : Logged Unit :=
  if s.reporting then
    Logged.report (.composed s.style statement.values.size (s.reportedSql statement.sql))
  else return ()

/-- Composes segments and fragments. -/
def compose {φ : Type} [Filler φ] (s : Settings) (segments : List String)
    (fragments : List φ) : Logged Statement := do
  let statement ← SqlCompose.compose segments fragments s.collector
  s.report statement
  return statement

/-- Composes a template. -/
def composeTemplate (s : Settings) (t : Template) : Logged Statement := do
  let statement ← t.render s.style
  s.report statement
  return statement

/-- Composes a fragment on its own. -/
def composeFragment {φ : Type} [Filler φ] (s : Settings) (f : φ) : Logged Statement := do
  let statement := Render.build s.style (Filler.render f)
  s.report statement
  return statement

end Settings

end SqlCompose
