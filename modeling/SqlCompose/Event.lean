/-
  SqlCompose.Event

  What the library reports while it works. There are two events: that something
  was refused, and that a statement was composed. `Logged` computations may report
  events and may be refused; every refusal that is reported goes through `refuse`,
  which reports it once and then stops.
-/
import SqlCompose.Marker

namespace SqlCompose

/-- Something worth a line in a log. -/
inductive Event where
  /-- A statement, or a part of one, was refused. -/
  | refused (error : ComposeError)
  /-- A statement was composed; the text may be abbreviated. -/
  | composed (style : MarkerStyle) (values : Nat) (sql : String)
deriving DecidableEq

namespace Event

/-- The channel of an event. -/
def target : Event → String
  | .refused _ => "sqlfill.fill"
  | .composed .. => "sqlfill.render"

/-- The severity of an event. -/
def level : Event → String
  | .refused _ => "WARN"
  | .composed .. => "DEBUG"

/-- The fields of an event, by name. -/
def fields : Event → List (String × String)
  | .refused error => [("error", error.message), ("message", "rejected SQL fragment")]
  | .composed style values sql =>
    [("style", style.name), ("param_count", toString values), ("sql", sql)]

end Event

/-- A computation that may report events and may be refused. The events of a
    refused computation are kept. -/
abbrev Logged := ExceptT ComposeError (StateM (Array Event))

namespace Logged

/-- Reports one event. -/
def report (event : Event) : Logged Unit := modify (·.push event)

/-- Reports a refusal and stops. -/
def refuse {α : Type} (error : ComposeError) : Logged α := do
  report (.refused error)
  throw error

/-- The outcome of a check; a refusal is reported. -/
def ofExcept {α : Type} : Except ComposeError α → Logged α
  | .ok a => return a
  | .error e => refuse e

/-- The outcome of a computation and the events it adds to `events`. -/
def outcome {α : Type} (x : Logged α) (events : Array Event) :
    Except ComposeError α × Array Event :=
  Id.run (StateT.run (ExceptT.run x) events)

@[simp] theorem outcome_pure {α : Type} (a : α) (events : Array Event) :
    (pure a : Logged α).outcome events = (.ok a, events) := rfl

/-- A refusal leaves one event more, and the computation behind it is not run. -/
@[simp] theorem outcome_refuse {α : Type} (error : ComposeError) (events : Array Event) :
    (refuse error : Logged α).outcome events = (.error error, events.push (.refused error)) := rfl

@[simp] theorem outcome_report (event : Event) (events : Array Event) :
    (report event).outcome events = (.ok (), events.push event) := rfl

theorem outcome_bind {α β : Type} (x : Logged α) (f : α → Logged β) (events : Array Event) :
    (x >>= f).outcome events =
      match x.outcome events with
      | (.ok a, after) => (f a).outcome after
      | (.error error, after) => (.error error, after) := by
  simp only [outcome, ExceptT.run_bind, StateT.run_bind]
  cases h : StateT.run (ExceptT.run x) events with
  | mk result after => cases result <;> rfl

@[simp] theorem outcome_ofExcept_ok {α : Type} (a : α) (events : Array Event) :
    (ofExcept (.ok a)).outcome events = (.ok a, events) := rfl

@[simp] theorem outcome_ofExcept_error {α : Type} (error : ComposeError) (events : Array Event) :
    (ofExcept (.error error) : Logged α).outcome events =
      (.error error, events.push (.refused error)) := rfl

end Logged

end SqlCompose
