/-
  SqlCompose.Proofs.Leaf

  The leaves of a composed statement, one for every function that makes a condition
  or a fragment out of data. `Source` is where a bound value comes from: the program
  gives the value itself, a number of rows or JSON data.

  A leaf that is built has the outlines that can be read off it
  (`Leaf.plays_of_outcome_build`) and binds its sources (`Leaf.binds_outlines`), and
  so does a fragment that groups and WHERE clauses make of such leaves
  (`Plan.outline_of_outcome_build`). A `Construction` is such a fragment with its plan.
-/
import SqlCompose.Proofs.Document

namespace SqlCompose

/-! ## Sources -/

/-- What a bound value is made from. -/
inductive Source where
  | value (v : Value)
  | rows (n : Int64)
  | json (j : Json)

namespace Source

/-- The value that is bound. -/
def toValue : Source → Value
  | .value v => v
  | .rows n => .int n
  | .json j => Value.ofJson j

end Source

/-! ## Leaves -/

/-- A condition or a fragment that is made out of data. -/
inductive Leaf where
  /-- Text as a condition. -/
  | text (sql : String)
  /-- A comparison, if there is an operand. -/
  | comparison (head : String) (operand : Option Operand)
  /-- A column map as a condition. -/
  | columns (m : ColumnMap)
  /-- JSON data as a condition. -/
  | document (d : Document)
  /-- The columns of a row to insert and their values. -/
  | row (m : ColumnMap)
  /-- A SET clause. -/
  | assignments (m : ColumnMap)
  /-- A SELECT list. -/
  | select (names : List String)
  /-- A bound on the rows. -/
  | bound (which : RowBound) (rows : Option Int64)
  /-- Text as a fragment. -/
  | raw (sql : String)

namespace Leaf

/-- The condition that a leaf is, as the functions for it build it. -/
def build : Leaf → Logged Condition
  | .text sql => return .text sql
  | .comparison head operand => return .comparison head operand
  | .columns m => return .columns m
  | .document d => Condition.ofJson d.json
  | .row m => do return .fragment (← Fragment.insertRow m)
  | .assignments m => do return .fragment (← Fragment.assign m)
  | .select names => do return .fragment (← Fragment.select names)
  | .bound .limit rows => return .fragment (Fragment.limit rows)
  | .bound .offset rows => return .fragment (Fragment.offset rows)
  | .raw sql => return .fragment (.text sql)

/-- The role of the condition that a leaf is, if it is built. -/
def outlines : Leaf → Role Outline
  | .text sql => (Condition.text sql).role
  | .comparison head operand => (Condition.comparison head operand).role
  | .columns m => (Condition.columns m).role
  | .document d => d.outlines
  | .row m => .single (rowOutline m.present)
  | .assignments m => .single (assignmentsOutline m.present)
  | .select names =>
    match Fragment.columnTexts names with
    | .ok texts => .single [.text ("SELECT " ++ ", ".intercalate texts)]
    | .error _ => .single []
  | .bound which rows => .single (boundOutline which rows)
  | .raw sql => .single [.text sql]

/-- What a leaf binds, in order. -/
def sources : Leaf → List Source
  | .comparison _ (some (.value v)) => [.value v]
  | .comparison _ (some (.list vs)) => vs.map .value
  | .columns m | .row m | .assignments m => m.present.map (.value ·.2)
  | .document d => d.bound.map .json
  | .bound _ rows => (rows.filter (· ≠ 0)).toList.map .rows
  | .text _ | .comparison _ none | .select _ | .raw _ => []

end Leaf

/-! ## Clauses -/

theorem Logged.Gives.eq_of_outcome {α : Type} {x : Logged α} {a b : α} (h : x.Gives a)
    {events after : Array Event} (h_outcome : x.outcome events = (.ok b, after)) : a = b := by
  rw [h events, Prod.mk.injEq, Except.ok.injEq] at h_outcome
  exact h_outcome.1

/-- What a clause is made into, with the fragment that it gives. -/
theorem Logged.gives_fragment {x : Logged Fragment} {f : Fragment} (h : x.Gives f) :
    (do return Condition.fragment (← x) : Logged Condition).Gives (.fragment f) :=
  h.bind (Logged.gives_pure _)

/-- What is refused under a condition, and was not, is given. -/
theorem Logged.of_outcome_unless {α : Type} {refused : Bool} {cause : ComposeError} {a b : α}
    {events after : Array Event}
    (h : (if refused then Logged.refuse cause else return a : Logged α).outcome events
      = (.ok b, after)) : refused = false := by
  cases refused with
  | false => rfl
  | true =>
      rw [if_pos rfl, Logged.outcome_refuse] at h
      simp at h

theorem Logged.gives_unless {α : Type} {refused : Bool} (cause : ComposeError) (a : α)
    (h : refused = false) :
    (if refused then Logged.refuse cause else return a : Logged α).Gives a := by
  rw [h, if_neg Bool.false_ne_true]
  exact Logged.gives_pure a

namespace Fragment

theorem gives_insertRow {m : ColumnMap} (h : m.present.isEmpty = false) :
    (insertRow m).Gives (.row m.present) := Logged.gives_unless .noColumn _ h

theorem gives_assign {m : ColumnMap} (h : m.present.isEmpty = false) :
    (assign m).Gives (.assignments m.present) := Logged.gives_unless .noAssignment _ h

theorem eq_append_of_tableOf {column table : String} (h : tableOf? column = some table) :
    column = table ++ ".*" := by
  simp only [tableOf?] at h
  split at h
  · rename_i h_suffix
    obtain ⟨front, h_column⟩ := h_suffix
    rw [Option.some.injEq] at h
    have h_table : column.toList.take (column.toList.length - 2) = front := by
      rw [← h_column, List.length_append]
      simp
    rw [h_table] at h
    rw [← String.toList_inj, ← h, String.toList_append, String.toList_ofList, ← h_column]
    rfl
  · cases h

/-- A column of a SELECT list is written as it was given. -/
theorem columnText_eq_ok {column text : String} (h : columnText column = .ok text) :
    text = column := by
  rw [columnText] at h
  by_cases h_star : column = "*"
  · rw [if_pos h_star, Except.ok.injEq] at h
    exact h.symm
  · rw [if_neg h_star] at h
    cases h_table : tableOf? column with
    | some table =>
        cases h_parse : Identifier.parse table with
        | error cause => simp [h_table, h_parse, Except.map] at h
        | ok i =>
            simp only [h_table, h_parse, Except.map, Except.ok.injEq] at h
            rw [← h, Identifier.sql_of_parse h_parse, eq_append_of_tableOf h_table]
    | none =>
        cases h_parse : Identifier.parse column with
        | error cause => simp [h_table, h_parse, Except.map] at h
        | ok i =>
            simp only [h_table, h_parse, Except.map, Except.ok.injEq] at h
            rw [← h, Identifier.sql_of_parse h_parse]

theorem columnTexts_eq_ok {names texts : List String} (h : columnTexts names = .ok texts) :
    texts = names := by
  induction names generalizing texts with
  | nil =>
      rw [columnTexts, Except.ok.injEq] at h
      exact h.symm
  | cons name names ih =>
      rw [columnTexts] at h
      cases h_first : columnText name with
      | error cause => simp [h_first, bind, Except.bind] at h
      | ok text =>
          cases h_rest : columnTexts names with
          | error cause => simp [h_first, h_rest, bind, Except.bind] at h
          | ok more =>
              simp only [h_first, h_rest, bind, Except.bind, pure, Except.pure,
                Except.ok.injEq] at h
              rw [← h, columnText_eq_ok h_first, ih h_rest]

/-- A SELECT list that is not refused is the text of its columns. -/
theorem select_of_outcome {names : List String} {f : Fragment} {events after : Array Event}
    (h : (select names).outcome events = (.ok f, after)) :
    ∃ texts, columnTexts names = .ok texts ∧
      (select names).Gives (.text ("SELECT " ++ ", ".intercalate texts)) := by
  rw [select] at h ⊢
  cases h_texts : columnTexts names with
  | error cause =>
      rw [h_texts, Logged.outcome_bind, Logged.outcome_ofExcept_error] at h
      simp at h
  | ok texts =>
      refine ⟨texts, rfl, ?_⟩
      have h_first : (Logged.ofExcept (.ok texts)).Gives texts := Logged.outcome_ofExcept_ok texts
      rw [h_texts, Logged.outcome_bind, h_first] at h
      exact h_first.bind (Logged.gives_unless _ _ (Logged.of_outcome_unless h))

end Fragment

/-! ## Building -/

namespace Leaf

/-- A leaf that is built reports nothing, and the condition has the role of the leaf. -/
theorem plays_of_outcome_build {leaf : Leaf} {events after : Array Event}
    {condition : Condition} (h : leaf.build.outcome events = (.ok condition, after)) :
    leaf.build.Gives condition ∧ condition.Plays leaf.outlines := by
  suffices h_some : ∃ built, leaf.build.Gives built ∧ built.Plays leaf.outlines by
    obtain ⟨built, h_gives, h_plays⟩ := h_some
    rw [← h_gives.eq_of_outcome h]
    exact ⟨h_gives, h_plays⟩
  cases leaf with
  | text _ | comparison _ _ | columns _ => exact ⟨_, Logged.gives_pure _, rfl, rfl⟩
  | raw _ => exact ⟨_, Logged.gives_pure _, Condition.plays_fragment rfl⟩
  | bound which _ =>
      cases which with
      | limit | offset => exact ⟨_, Logged.gives_pure _, Condition.plays_fragment rfl⟩
  | document d =>
      have h_read := Condition.read_of_ofJson h
      exact ⟨_, Condition.gives_of_read h_read, Document.plays_of_read h_read⟩
  | row m =>
      obtain ⟨f, between, h_clause, -⟩ := Logged.of_outcome_bind h
      have h_gives := Fragment.gives_insertRow (Logged.of_outcome_unless h_clause)
      exact ⟨_, Logged.gives_fragment h_gives, Condition.plays_fragment rfl⟩
  | assignments m =>
      obtain ⟨f, between, h_clause, -⟩ := Logged.of_outcome_bind h
      have h_gives := Fragment.gives_assign (Logged.of_outcome_unless h_clause)
      exact ⟨_, Logged.gives_fragment h_gives, Condition.plays_fragment rfl⟩
  | select names =>
      obtain ⟨f, between, h_clause, -⟩ := Logged.of_outcome_bind h
      obtain ⟨texts, h_texts, h_gives⟩ := Fragment.select_of_outcome h_clause
      refine ⟨_, Logged.gives_fragment h_gives, ?_⟩
      rw [outlines, h_texts]
      exact Condition.plays_fragment rfl

end Leaf

/-! ## Values -/

theorem ColumnMap.flatMap_entryOutline (m : ColumnMap) :
    (m.entries.toList.map ColumnMap.entryOutline).flatMap Outline.values
      = m.present.map Prod.snd := by
  rw [ColumnMap.present]
  induction m.entries.toList with
  | nil => rfl
  | cons entry entries ih =>
      obtain ⟨column, value⟩ := entry
      cases value with
      | none => exact ih
      | some v =>
          rw [List.map_cons, List.flatMap_cons, ih]
          rfl

namespace Leaf

/-- What a leaf binds is what its sources are made into. -/
theorem binds_outlines (leaf : Leaf) :
    leaf.outlines.Binds (leaf.sources.map Source.toValue) := by
  cases leaf with
  | text sql => exact (Condition.text sql).binds_role
  | raw sql => exact Role.binds_single [.text sql]
  | comparison head operand =>
      have h_values : (Condition.comparison head operand).outline.values
          = (Leaf.comparison head operand).sources.map Source.toValue := by
        rw [Condition.outline]
        cases operand with
        | none => rfl
        | some operand =>
            rw [Operand.outlineOption, Operand.values_outline]
            cases operand with
            | value v => rfl
            | list vs =>
                rw [sources, List.map_map, Operand.values]
                exact (List.map_id vs).symm
      rw [← h_values]
      exact (Condition.comparison head operand).binds_role
  | columns m =>
      have h_values : (Condition.columns m).outline.values
          = (Leaf.columns m).sources.map Source.toValue := by
        rw [Condition.outline, Connective.values_outline, ColumnMap.flatMap_entryOutline, sources,
          List.map_map]
        rfl
      rw [← h_values]
      exact (Condition.columns m).binds_role
  | document d =>
      have h_values : d.bound.map Value.ofJson
          = (Leaf.document d).sources.map Source.toValue := by
        rw [sources, List.map_map]
        rfl
      rw [← h_values]
      exact d.binds_role
  | row m =>
      have h_values : (rowOutline m.present).values = (Leaf.row m).sources.map Source.toValue := by
        rw [values_rowOutline, sources, List.map_map]
        rfl
      rw [← h_values]
      exact Role.binds_single _
  | assignments m =>
      have h_values : (assignmentsOutline m.present).values
          = (Leaf.assignments m).sources.map Source.toValue := by
        rw [values_assignmentsOutline, sources, List.map_map]
        rfl
      rw [← h_values]
      exact Role.binds_single _
  | select names =>
      rw [outlines]
      cases Fragment.columnTexts names with
      | ok texts => exact Role.binds_single _
      | error cause => exact Role.binds_single _
  | bound which rows =>
      have h_values : (boundOutline which rows).values
          = (Leaf.bound which rows).sources.map Source.toValue := by
        rw [boundOutline, sources]
        cases rows.filter (· ≠ 0) with
        | none => rfl
        | some n => rfl
      rw [← h_values]
      exact Role.binds_single _

end Leaf

/-! ## Plans -/

namespace Plan

variable {α : Type}

/-- What the leaves of a plan bind, from left to right. -/
def sources (leaf : α → Leaf) (plan : Plan α) : List Source :=
  plan.leaves.flatMap fun a => (leaf a).sources

/-- A plan that is built from leaves reports nothing, and the condition has the role of
    the plan. -/
theorem plays_of_outcome_build (leaf : α → Leaf) {plan : Plan α} {condition : Condition}
    {events after : Array Event}
    (h : (plan.build fun a => (leaf a).build).outcome events = (.ok condition, after)) :
    (plan.build fun a => (leaf a).build).Gives condition ∧
      condition.Plays (plan.role (.outlines fun a => (leaf a).outlines)) := by
  obtain ⟨h_filled, h_leaves⟩ := leaves_of_outcome_build plan _ _ _ h
  have h_built : ∀ a ∈ plan.leaves, ∃ condition,
      (leaf a).build.Gives condition ∧ condition.Plays (leaf a).outlines := by
    intro a h_a
    obtain ⟨before, built, later, h_leaf⟩ := h_leaves a h_a
    exact ⟨built, Leaf.plays_of_outcome_build h_leaf⟩
  obtain ⟨built, h_gives, h_plays⟩ := plan.gives_build h_built h_filled
  have h_condition := h_gives.eq_of_outcome h
  subst h_condition
  exact ⟨h_gives, h_plays⟩

/-- A fragment that is built from leaves has the outline of its plan, and binds what
    the sources of the leaves are made into. -/
theorem outline_of_outcome_build (leaf : α → Leaf) {plan : Plan α} {g : Fragment}
    {events after : Array Event}
    (h : (plan.build fun a => (leaf a).build).outcome events = (.ok (.fragment g), after)) :
    g.stepsAll Step.isPlain = true ∧
      g.outline = (plan.role (.outlines fun a => (leaf a).outlines)).whole ∧
      g.outline.values = (plan.sources leaf).map Source.toValue := by
  obtain ⟨-, h_plays⟩ := plays_of_outcome_build leaf h
  refine ⟨h_plays.plain, h_plays.outline_eq, ?_⟩
  rw [h_plays.outline_eq, sources, List.map_flatMap]
  exact (plan.binds_role fun a _ => (leaf a).binds_outlines).whole

end Plan

/-- A fragment that a program builds out of leaves. -/
structure Construction where
  plan : Plan Leaf
  fragment : Fragment
  built : ∃ events after,
    (plan.build Leaf.build).outcome events = (.ok (.fragment fragment), after)

namespace Construction

/-- What the fragment binds, in order. -/
def values (x : Construction) : List Value :=
  (x.plan.sources fun leaf => leaf).map Source.toValue

/-- It is written with plain steps and has the outline of its plan. -/
theorem spec (x : Construction) :
    x.fragment.stepsAll Step.isPlain = true ∧
      x.fragment.outline = (x.plan.role (.outlines Leaf.outlines)).whole ∧
      x.fragment.outline.values = x.values := by
  obtain ⟨events, after, h_built⟩ := x.built
  exact Plan.outline_of_outcome_build (fun leaf => leaf) h_built

end Construction

end SqlCompose
