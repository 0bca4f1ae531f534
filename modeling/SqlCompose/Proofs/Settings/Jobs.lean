/-
  SqlCompose.Proofs.Settings.Jobs

  What settings add to composing. A `Job` is one use of the settings: segments and
  fragments, a template, or a fragment on its own are composed, and a fragment is whatever
  renders. `Job.plain` composes the same without settings, and `Settings.performAll` does
  job after job, with one log for all of them.

  `Settings.Logs` are the rules of the log, from an answer to its lines. They say word for
  word what stands in the log and not how it gets there, and they leave no choice
  (`Logs.unique`).

  All three ways of composing are one (`Job.outcome_plain`), so one step lemma serves
  them (`Settings.exists_outcome_perform`), and a run is its steps one after the other
  (`Settings.exists_performAll`).
-/
import Mathlib.Data.List.Forall2
import SqlCompose.Proofs.Statement
import SqlCompose.Proofs.Text.Cut
import SqlCompose.Settings

namespace SqlCompose

/-! ## Jobs -/

/-- Something to compose. -/
inductive Job (φ : Type) where
  /-- Segments and fragments in turn. -/
  | interleaved (segments : List String) (fragments : List φ)
  /-- A template. -/
  | template (t : Template)
  /-- A fragment on its own. -/
  | fragment (f : φ)

variable {φ : Type} [Filler φ]

namespace Job

/-- Composing without settings, on a fresh collector. -/
def plain (style : MarkerStyle) : Job φ → Logged Statement
  | .interleaved segments fragments => compose segments fragments { style }
  | .template t => t.render style
  | .fragment f => return Render.build style (Filler.render f)

/-- What composing without settings gives. -/
def answer (style : MarkerStyle) (job : Job φ) : Except ComposeError Statement :=
  ((job.plain style).outcome #[]).1

/-- The texts between the fragments of a job. -/
def texts : Job φ → List String
  | .interleaved segments _ => segments
  | .template t => t.closedSegments.toList
  | .fragment _ => ["", ""]

/-- The fragments of a job. -/
def fragments : Job φ → List (Render String)
  | .interleaved _ fragments => fragments.map Filler.render
  | .template t => t.fragments.toList
  | .fragment f => [Filler.render f]

end Job

/-! ## Lines of the log -/

/-- A line of the log. -/
structure Line where
  target : String
  level : String
  fields : List (String × String)
deriving DecidableEq

/-- What the log shows of an event. -/
def Event.line (e : Event) : Line := ⟨e.target, e.level, e.fields⟩

namespace Settings

/-- The line of a statement that was composed, of which `sql` is shown. -/
def composedLine (s : Settings) (statement : Statement) (sql : String) : Line :=
  let style :=
    match s.style with
    | .positional => "positional"
    | .anonymous => "anonymous"
  ⟨"sqlfill.render", "DEBUG",
    [("style", style), ("param_count", toString statement.values.size), ("sql", sql)]⟩

/-- The line of a refusal: there were that many texts for that many fragments. -/
def refusedLine (texts fragments : Nat) : Line :=
  let error := "Template has " ++ toString texts ++ " text segments for " ++
    toString fragments ++ " fillers (expected fillers + 1)"
  ⟨"sqlfill.fill", "WARN", [("error", error), ("message", "rejected SQL fragment")]⟩

/-- What is shown of a text under a limit on its bytes. -/
inductive Shows : Option UInt64 → String → String → Prop where
  /-- Without a limit, the whole text. -/
  | unlimited {sql : String} : Shows none sql sql
  /-- The whole text too if it has no more bytes than the limit. -/
  | whole {limit : UInt64} {sql : String} (h : sql.utf8ByteSize ≤ limit.toNat) :
      Shows (some limit) sql sql
  /-- Of a longer text the longest part that fits, and three dots. -/
  | cut {limit : UInt64} {sql : String} {kept : List Char} (h : limit.toNat < sql.utf8ByteSize)
      (h_kept : Text.LongestFit limit.toNat sql.toList kept) :
      Shows (some limit) sql (String.ofList kept ++ "...")

/-- The lines that an answer leaves in the log. -/
inductive Logs (s : Settings) : Except ComposeError Statement → List Line → Prop where
  /-- Statements are not reported if the settings do not ask for it. -/
  | silent {statement : Statement} (h : s.reporting = false) : Logs s (.ok statement) []
  /-- A statement that is reported has one line. -/
  | composed {statement : Statement} {sql : String} (h : s.reporting = true)
      (h_sql : Shows s.reportLimit statement.sql sql) :
      Logs s (.ok statement) [s.composedLine statement sql]
  /-- A refusal has one line, whatever the settings are. -/
  | refused {texts fragments : Nat} :
      Logs s (.error (.unevenSegments texts fragments)) [refusedLine texts fragments]

theorem Shows.unique {limit : Option UInt64} {sql shown other : String}
    (h : Shows limit sql shown) (h_other : Shows limit sql other) : shown = other := by
  cases h with
  | unlimited =>
      cases h_other with
      | unlimited => rfl
  | whole h_fits =>
      cases h_other with
      | whole => rfl
      | cut h_long => omega
  | cut h_long h_kept =>
      cases h_other with
      | whole h_fits => omega
      | cut _ h_same => rw [h_kept.unique h_same]

/-- The rules leave no choice. -/
theorem Logs.unique {s : Settings} {answer : Except ComposeError Statement}
    {lines others : List Line} (h : s.Logs answer lines) (h_other : s.Logs answer others) :
    lines = others := by
  cases h with
  | silent h_off =>
      cases h_other with
      | silent => rfl
      | composed h_on => exact absurd (h_off.symm.trans h_on) Bool.false_ne_true
  | composed h_on h_sql =>
      cases h_other with
      | silent h_off => exact absurd (h_off.symm.trans h_on) Bool.false_ne_true
      | composed _ h_same => rw [h_sql.unique h_same]
  | refused =>
      cases h_other with
      | refused => rfl

end Settings

/-! ## Composing without settings -/

namespace Job

/-- A fragment on its own is the statement of the fragment between two empty segments. -/
theorem outcome_plain (job : Job φ) (style : MarkerStyle) (events : Array Event) :
    (job.plain style).outcome events
      = (compose job.texts job.fragments { style }).outcome events := by
  cases job with
  | interleaved segments fragments =>
      rw [texts, Job.fragments, compose_map_render]
      rfl
  | template t => rfl
  | fragment f =>
      rw [texts, fragments, outcome_compose_of_even rfl, plain, Logged.outcome_pure]
      simp only [interleave, Collector.run_bind, Collector.run_pure, String.empty_append,
        String.append_empty]
      rfl

/-- What composing gives does not depend on the log. -/
theorem exists_outcome_of_even {job : Job φ} (h : job.texts.length = job.fragments.length + 1)
    (style : MarkerStyle) :
    ∃ statement, ∀ events, (job.plain style).outcome events = (.ok statement, events) :=
  ⟨_, fun events => (job.outcome_plain style events).trans (outcome_compose_of_even h _ events)⟩

/-- Only a refusal is reported. -/
theorem outcome_of_uneven {job : Job φ} (h : job.texts.length ≠ job.fragments.length + 1)
    (style : MarkerStyle) (events : Array Event) :
    (job.plain style).outcome events
      = (.error (.unevenSegments job.texts.length job.fragments.length),
          events.push (.refused (.unevenSegments job.texts.length job.fragments.length))) := by
  rw [outcome_plain, outcome_compose_of_uneven h]

theorem answer_of_even {job : Job φ} (h : job.texts.length = job.fragments.length + 1)
    (style : MarkerStyle) : ∃ statement, job.answer style = .ok statement := by
  obtain ⟨statement, h_outcome⟩ := exists_outcome_of_even h style
  exact ⟨statement, by rw [answer, h_outcome]⟩

theorem answer_of_uneven {job : Job φ} (h : job.texts.length ≠ job.fragments.length + 1)
    (style : MarkerStyle) :
    job.answer style = .error (.unevenSegments job.texts.length job.fragments.length) := by
  rw [answer, outcome_of_uneven h]

end Job

/-! ## Composing with settings -/

namespace Settings

/-- Composing with the settings. -/
def perform (s : Settings) : Job φ → Logged Statement
  | .interleaved segments fragments => s.compose segments fragments
  | .template t => s.composeTemplate t
  | .fragment f => s.composeFragment f

/-- Composing job after job with one log. A refusal ends its job and no other. -/
def performAll (s : Settings) :
    List (Job φ) → Array Event → List (Except ComposeError Statement) × Array Event
  | [], events => ([], events)
  | job :: jobs, events =>
    let (answer, events) := (s.perform job).outcome events
    let (answers, events) := s.performAll jobs events
    (answer :: answers, events)

/-- The settings come in after composing. -/
theorem perform_eq (s : Settings) (job : Job φ) :
    s.perform job = do
      let statement ← job.plain s.style
      s.report statement
      return statement := by
  cases job with
  | interleaved segments fragments => rfl
  | template t => rfl
  | fragment f => rfl

theorem shows_reportedSql (s : Settings) (sql : String) :
    Shows s.reportLimit sql (s.reportedSql sql) := by
  rw [reportedSql]
  cases s.reportLimit with
  | none => exact .unlimited
  | some limit =>
      show Shows (some limit) sql (Text.abbreviate limit.toNat sql)
      rw [Text.abbreviate_eq]
      by_cases h_fits : sql.utf8ByteSize ≤ limit.toNat
      · rw [if_pos h_fits]
        exact .whole h_fits
      · rw [if_neg h_fits]
        exact .cut (Nat.lt_of_not_le h_fits) (Text.longestFit_takeBytes _ _)

theorem outcome_report (s : Settings) (statement : Statement) (events : Array Event) :
    (s.report statement).outcome events
      = (.ok (), if s.reporting then
          events.push (.composed s.style statement.values.size (s.reportedSql statement.sql))
        else events) := by
  rw [report]
  cases s.reporting with
  | false => rfl
  | true => rfl

theorem line_composed (s : Settings) (statement : Statement) (sql : String) :
    (Event.composed s.style statement.values.size sql).line = s.composedLine statement sql := by
  rw [composedLine, Event.line, Event.fields]
  cases s.style with
  | positional => rfl
  | anonymous => rfl

theorem line_refused (texts fragments : Nat) :
    (Event.refused (.unevenSegments texts fragments)).line = refusedLine texts fragments := rfl

theorem exists_outcome_report (s : Settings) (statement : Statement) :
    ∃ new : List Event, s.Logs (.ok statement) (new.map Event.line) ∧
      ∀ events, (s.report statement).outcome events = (.ok (), events ++ new) := by
  simp only [outcome_report]
  cases h_reporting : s.reporting with
  | false => exact ⟨[], .silent h_reporting, fun _ => congrArg (Prod.mk _) Array.append_empty.symm⟩
  | true =>
      refine ⟨[.composed s.style statement.values.size (s.reportedSql statement.sql)],
        ?_, fun _ => rfl⟩
      rw [List.map_singleton, line_composed]
      exact .composed h_reporting (s.shows_reportedSql statement.sql)

/-- A job has the answer that it has without settings, and leaves the lines of it. -/
theorem exists_outcome_perform (s : Settings) (job : Job φ) :
    ∃ new : List Event, s.Logs (job.answer s.style) (new.map Event.line) ∧
      ∀ events, (s.perform job).outcome events = (job.answer s.style, events ++ new) := by
  by_cases h : job.texts.length = job.fragments.length + 1
  · obtain ⟨statement, h_plain⟩ := Job.exists_outcome_of_even h s.style
    obtain ⟨new, h_logs, h_report⟩ := s.exists_outcome_report statement
    have h_answer : job.answer s.style = .ok statement := by rw [Job.answer, h_plain]
    rw [h_answer]
    refine ⟨new, h_logs, fun events => ?_⟩
    rw [perform_eq, Logged.outcome_bind, h_plain]
    simp only [Logged.outcome_bind, h_report, Logged.outcome_pure]
  · rw [Job.answer_of_uneven h]
    refine ⟨[.refused (.unevenSegments job.texts.length job.fragments.length)], ?_,
      fun events => ?_⟩
    · rw [List.map_singleton, line_refused]
      exact .refused
    · rw [perform_eq, Logged.outcome_bind, Job.outcome_of_uneven h]
      rfl

/-- Job after job, every one has its answer and leaves its lines behind those that are
    there. -/
theorem exists_performAll (s : Settings) (jobs : List (Job φ)) (events : Array Event) :
    ∃ lines : List (List Line),
      List.Forall₂ (fun job => s.Logs (job.answer s.style)) jobs lines ∧
      (s.performAll jobs events).1 = jobs.map (Job.answer s.style) ∧
      (s.performAll jobs events).2.toList.map Event.line
        = events.toList.map Event.line ++ lines.flatten := by
  induction jobs generalizing events with
  | nil => exact ⟨[], .nil, rfl, (List.append_nil _).symm⟩
  | cons job jobs ih =>
      obtain ⟨new, h_logs, h_outcome⟩ := s.exists_outcome_perform job
      obtain ⟨lines, h_rest, h_answers, h_log⟩ := ih (events ++ new)
      have h_run : s.performAll (job :: jobs) events
          = (job.answer s.style :: (s.performAll jobs (events ++ new)).1,
              (s.performAll jobs (events ++ new)).2) := by
        rw [performAll, h_outcome]
      refine ⟨new.map Event.line :: lines, .cons h_logs h_rest, ?_, ?_⟩
      · rw [h_run, h_answers, List.map_cons]
      · rw [h_run, h_log, Array.toList_appendList, List.map_append, List.flatten_cons,
          List.append_assoc]

/-- Reporting observes and never interferes: job after job, the answers are those that
    composing without settings gives, and the log grows by the lines that the rules of
    the log give for them, one job after the other. A job is refused if and only if it
    has not one text more than fragments, and for this reason. -/
theorem performAll_logs (s : Settings) (jobs : List (Job φ)) (events : Array Event) :
    (s.performAll jobs events).1 = jobs.map (Job.answer s.style) ∧
    (∃ lines : List (List Line),
      (∀ others, List.Forall₂ (fun job => s.Logs (job.answer s.style)) jobs others ↔
        others = lines) ∧
      (s.performAll jobs events).2.toList.map Event.line
        = events.toList.map Event.line ++ lines.flatten) ∧
    ∀ job : Job φ,
      (job.texts.length = job.fragments.length + 1 →
        ∃ statement, job.answer s.style = .ok statement) ∧
      (job.texts.length ≠ job.fragments.length + 1 →
        job.answer s.style = .error (.unevenSegments job.texts.length job.fragments.length)) := by
  obtain ⟨lines, h_logs, h_answers, h_log⟩ := s.exists_performAll jobs events
  have h_unique : ∀ others,
      List.Forall₂ (fun job => s.Logs (job.answer s.style)) jobs others ↔ others = lines := by
    intro others
    constructor
    · intro h_others
      exact List.right_unique_forall₂' (fun _ _ _ h h_other => h.unique h_other) h_others h_logs
    · rintro rfl
      exact h_logs
  refine ⟨h_answers, ⟨lines, h_unique, h_log⟩, fun job => ⟨?_, ?_⟩⟩
  · exact fun h_even => Job.answer_of_even h_even s.style
  · exact fun h_uneven => Job.answer_of_uneven h_uneven s.style

/-- A text that is cut inside its limit, a refusal, and a marker. The text is that of a
    computation which looks at what is bound. -/
theorem performAll_logs_cut :
    let s : Settings := { style := .anonymous, reportLimit := some 2 }
    let first : Render String := do
      let c ← get
      if c.values.isEmpty then return "aé" else Collector.bind .null
    let jobs : List (Job (Render String)) :=
      [.fragment first, .interleaved ["a", "b"] [], .fragment (Collector.bind .null)]
    (s.performAll jobs #[]).1
      = [.ok ⟨"aé", #[]⟩, .error (.unevenSegments 2 0), .ok ⟨"?", #[.null]⟩] ∧
    (s.performAll jobs #[]).2.toList.map Event.line
      = [⟨"sqlfill.render", "DEBUG",
            [("style", "anonymous"), ("param_count", "0"), ("sql", "a...")]⟩,
          ⟨"sqlfill.fill", "WARN",
            [("error", "Template has 2 text segments for 0 fillers (expected fillers + 1)"),
              ("message", "rejected SQL fragment")]⟩,
          ⟨"sqlfill.render", "DEBUG",
            [("style", "anonymous"), ("param_count", "1"), ("sql", "?")]⟩] ∧
    2 ≠ 0 + 1 ∧
    (Job.interleaved ["a", "b"] [] : Job (Render String)).answer .anonymous
      = .error (.unevenSegments 2 0) := by
  intro s first jobs
  obtain ⟨h_answers, ⟨lines, h_unique, h_log⟩, h_refused⟩ := s.performAll_logs jobs #[]
  have h_kept : Text.LongestFit (2 : UInt64).toNat "aé".toList ['a'] :=
    Text.longestFit_takeBytes 2 "aé".toList
  have h_cut : Shows (some 2) "aé" "a..." := .cut (by decide) h_kept
  have h_lines : [[s.composedLine ⟨"aé", #[]⟩ "a..."], [refusedLine 2 0],
      [s.composedLine ⟨"?", #[.null]⟩ "?"]] = lines := by
    refine (h_unique _).mp (.cons ?_ (.cons .refused (.cons ?_ .nil)))
    · exact .composed rfl h_cut
    · exact .composed rfl (.whole (by decide))
  refine ⟨h_answers, ?_, by decide, (h_refused (.interleaved ["a", "b"] [])).2 (by decide)⟩
  rw [h_log, ← h_lines]
  decide

end Settings

end SqlCompose
