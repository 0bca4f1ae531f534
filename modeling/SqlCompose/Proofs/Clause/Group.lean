/-
  SqlCompose.Proofs.Clause.Group

  What conditions contribute to a group, as a computation. A condition contributes the
  texts of the conditions that it stands for there (`Condition.members`), and a group
  joins what its conditions contribute, one after the other (`Connective.render_group`,
  `renderMembers_cons`). So two groups are rendered in the same way if their conditions
  contribute the same, whatever these conditions are and also if fragments written by hand
  are among them.

    * A column map contributes what its columns with a value contribute
      (`ColumnMap.renderEntries_present`).
    * A condition that is idle wherever it is rendered contributes nothing to any group
      (`Condition.IsIdle.members`).
-/
import SqlCompose.Proofs.Plan

namespace SqlCompose

/-- Computations that do the same on every collector are the same. -/
theorem Render.ext {α : Type} {x y : Render α} (h : ∀ c : Collector, c.run x = c.run y) : x = y :=
  StateT.ext h

/-! ## Members -/

/-- What a condition stands for in a group: in a conjunction, a column map stands for its
    comparisons. -/
def Condition.members (connective : Connective) (condition : Condition) : List Condition :=
  match connective with
  | .and => condition.spliced
  | .or => [condition]

/-- The texts that conditions contribute to a group. -/
def renderMembers (connective : Connective) (conditions : List Condition) :
    Render (List String) :=
  renderConditions (conditions.flatMap (·.members connective))

theorem renderConditions_append (conditions others : List Condition) :
    renderConditions (conditions ++ others)
      = do
        let parts ← renderConditions conditions
        let more ← renderConditions others
        return parts ++ more := by
  induction conditions with
  | nil => simp [renderConditions]
  | cons condition rest ih =>
      rw [List.cons_append, renderConditions, renderConditions, ih]
      simp only [bind_assoc, pure_bind, List.append_assoc]

theorem renderMembers_append (connective : Connective) (conditions others : List Condition) :
    renderMembers connective (conditions ++ others)
      = do
        let parts ← renderMembers connective conditions
        let more ← renderMembers connective others
        return parts ++ more := by
  rw [renderMembers, List.flatMap_append, renderConditions_append]
  rfl

theorem renderMembers_cons (connective : Connective) (condition : Condition)
    (conditions : List Condition) :
    renderMembers connective (condition :: conditions)
      = do
        let parts ← renderConditions (condition.members connective)
        let more ← renderMembers connective conditions
        return parts ++ more := by
  rw [renderMembers, List.flatMap_cons, renderConditions_append]
  rfl

/-- In the place of a condition another one can stand that contributes the same. -/
theorem renderMembers_replace {connective : Connective} {condition other : Condition}
    (h : renderConditions (condition.members connective)
      = renderConditions (other.members connective)) (before after : List Condition) :
    renderMembers connective (before ++ condition :: after)
      = renderMembers connective (before ++ other :: after) := by
  rw [renderMembers_append, renderMembers_append, renderMembers_cons, renderMembers_cons, h]

theorem Connective.render_group (connective : Connective) (conditions : List Condition) :
    (connective.group conditions).render
      = do
        let parts ← renderMembers connective conditions
        return connective.join parts := by
  cases connective with
  | and =>
      rw [Connective.group, Condition.and, Fragment.render]
      rfl
  | or =>
      have h_members : conditions.flatMap (·.members .or) = conditions :=
        List.flatMap_singleton' conditions
      rw [Connective.group, Condition.or, Fragment.render, renderMembers, h_members]

/-- Unless it is over a single fragment, a WHERE clause is about a conjunction. -/
theorem Fragment.over_eq_and {conditions : List Condition} (h : ∀ f, conditions ≠ [.fragment f]) :
    Fragment.over conditions = Connective.and.group conditions := by
  unfold Fragment.over
  split
  · rename_i f
    exact absurd rfl (h f)
  · rfl

/-! ## Column maps -/

namespace ColumnMap

/-- The entries of columns with a value. -/
def withValues (entries : List (String × Value)) : List (String × Option Value) :=
  entries.map fun (column, v) => (column, some v)

theorem renderConditions_conditions (m : ColumnMap) :
    renderConditions m.conditions = renderEntries m.entries.toList := by
  rw [conditions]
  induction m.entries.toList with
  | nil => rfl
  | cons entry entries ih =>
      rw [List.map_cons, renderConditions, ih, Condition.render, renderEntries]

/-- Columns without a value contribute nothing. -/
theorem renderEntries_present (m : ColumnMap) :
    renderEntries m.entries.toList = renderEntries (withValues m.present) := by
  rw [present]
  induction m.entries.toList with
  | nil => rfl
  | cons entry entries ih =>
      obtain ⟨column, value⟩ := entry
      cases value with
      | none =>
          rw [renderEntries, Option.map_none, Operand.renderOption, ih]
          simp
      | some v =>
          show renderEntries ((column, some v) :: entries)
            = renderEntries ((column, some v) :: withValues (entries.filterMap _))
          rw [renderEntries, renderEntries, ih]

/-- Maps with the same columns and values contribute the same. -/
theorem renderConditions_members {m n : ColumnMap} (h : m.present = n.present)
    (connective : Connective) :
    renderConditions ((Condition.columns m).members connective)
      = renderConditions ((Condition.columns n).members connective) := by
  have h_entries : renderEntries m.entries.toList = renderEntries n.entries.toList := by
    rw [renderEntries_present, renderEntries_present, h]
  cases connective with
  | and =>
      show renderConditions m.conditions = renderConditions n.conditions
      rw [renderConditions_conditions, renderConditions_conditions, h_entries]
  | or =>
      show renderConditions [.columns m] = renderConditions [.columns n]
      simp only [renderConditions, Condition.render, h_entries]

end ColumnMap

/-! ## Idle conditions -/

/-- On every collector the condition renders to nothing and binds nothing. -/
def Condition.IsIdle (condition : Condition) : Prop :=
  ∀ c : Collector, c.run condition.render = (none, c)

theorem Condition.isIdle_iff {condition : Condition} :
    condition.IsIdle ↔ condition.render = pure none := by
  constructor
  · intro h
    exact Render.ext h
  · intro h c
    rw [h, Collector.run_pure]

/-- A group with parts has a text. -/
theorem Connective.isEmpty_join_cons (connective : Connective) (part : String)
    (parts : List String) : (connective.join (part :: parts)).isEmpty = false := by
  rw [← Bool.not_eq_true, String.isEmpty_iff, Connective.join, String.append_assoc]
  exact fun h_empty => absurd (String.append_eq_empty_iff.mp h_empty).1 (by decide)

theorem Connective.nonempty_join {connective : Connective} {parts : List String} :
    nonempty (connective.join parts) = none ↔ parts = [] := by
  constructor
  · intro h
    cases parts with
    | nil => rfl
    | cons part parts =>
        rw [nonempty, connective.isEmpty_join_cons] at h
        cases h
  · rintro rfl
    rfl

/-- The columns of an idle map are idle one by one. -/
theorem ColumnMap.renderEntries_of_isIdle {m : ColumnMap} (h : (Condition.columns m).IsIdle) :
    renderEntries m.entries.toList = pure [] := by
  apply Render.ext
  intro c
  have h_run := h c
  rw [Condition.render, Collector.run_bind, Collector.run_pure, Prod.mk.injEq,
    Connective.nonempty_join] at h_run
  rw [Collector.run_pure, ← h_run.1]
  exact Prod.ext rfl h_run.2

/-- An idle condition contributes nothing to a group. -/
theorem Condition.IsIdle.members {condition : Condition} (h : condition.IsIdle)
    (connective : Connective) :
    renderConditions (condition.members connective) = pure [] := by
  have h_single : renderConditions [condition] = pure [] := by
    rw [renderConditions, renderConditions, isIdle_iff.mp h]
    rfl
  cases connective with
  | or => exact h_single
  | and =>
      cases condition with
      | columns m =>
          show renderConditions m.conditions = pure []
          rw [m.renderConditions_conditions, ColumnMap.renderEntries_of_isIdle h]
      | text _ | comparison _ _ | fragment _ => exact h_single

theorem renderMembers_of_isIdle {conditions : List Condition}
    (h : ∀ condition ∈ conditions, condition.IsIdle) (connective : Connective) :
    renderMembers connective conditions = pure [] := by
  induction conditions with
  | nil => rfl
  | cons condition rest ih =>
      rw [List.forall_mem_cons] at h
      rw [renderMembers_cons, h.1.members, ih h.2]
      rfl

end SqlCompose
