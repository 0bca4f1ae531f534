/-
  SqlCompose.Proofs.Clause.Where

  Conditions that contribute nothing, put between the conditions of a WHERE clause
  (`Condition.Padded`). What is put in may be any condition that is idle on every collector;
  absent comparisons, empty texts, maps without a value and groups of such conditions are
  (`Condition.IsAbsent.isIdle`).

  The clause is about the conjunction of its conditions, and idle ones contribute nothing
  to a conjunction, so the clause stays as it is. There is one exception: a single fragment
  is the condition itself, and not a conjunction of one. With an idle condition beside it,
  it is one of several, and stands in parentheses (`whereClause_padded`).
-/
import SqlCompose.Proofs.Clause.Group

namespace SqlCompose

namespace Condition

/-! ## Absent conditions -/

/-- Conditions that can be told to contribute nothing from their data. -/
inductive IsAbsent : Condition → Prop where
  | text : IsAbsent (.text "")
  | comparison (head : String) : IsAbsent (.comparison head none)
  | columns {m : ColumnMap} (h : m.present = []) : IsAbsent (.columns m)
  | group (connective : Connective) {conditions : List Condition}
      (h : ∀ condition ∈ conditions, IsAbsent condition) :
      IsAbsent (.fragment (connective.group conditions))

theorem IsAbsent.isIdle {condition : Condition} (h : condition.IsAbsent) : condition.IsIdle := by
  induction h with
  | text =>
      rw [isIdle_iff, Condition.render]
      rfl
  | comparison head =>
      rw [isIdle_iff, Condition.render]
      rfl
  | columns h =>
      rename_i m
      rw [isIdle_iff, Condition.render, m.renderEntries_present, h]
      rfl
  | group connective _ ih =>
      rw [isIdle_iff, Condition.render, connective.render_group, renderMembers_of_isIdle ih]
      rfl

/-! ## Conditions between others -/

/-- The second list is the first one with idle conditions in front, behind or between. -/
inductive Padded : List Condition → List Condition → Prop where
  | nil : Padded [] []
  | keep (condition : Condition) {conditions padded : List Condition}
      (h : Padded conditions padded) : Padded (condition :: conditions) (condition :: padded)
  | pad {condition : Condition} (h_idle : condition.IsIdle) {conditions padded : List Condition}
      (h : Padded conditions padded) : Padded conditions (condition :: padded)

theorem Padded.length_le {conditions padded : List Condition} (h : Padded conditions padded) :
    conditions.length ≤ padded.length := by
  induction h with
  | nil => exact Nat.le_refl 0
  | keep _ _ ih => exact Nat.succ_le_succ ih
  | pad _ _ ih => exact Nat.le_succ_of_le ih

/-- Only a longer list has something more. -/
theorem Padded.eq_of_length_le {conditions padded : List Condition} (h : Padded conditions padded)
    (h_length : padded.length ≤ conditions.length) : padded = conditions := by
  induction h with
  | nil => rfl
  | keep condition _ ih => rw [ih (Nat.le_of_succ_le_succ h_length)]
  | pad _ h _ =>
      have h_le := h.length_le
      rw [List.length_cons] at h_length
      omega

/-- If the only condition is a fragment and nothing is missing, nothing was put in. -/
theorem Padded.eq_of_single {conditions : List Condition} {condition : Condition}
    (h : Padded conditions [condition]) (h_some : conditions ≠ []) :
    [condition] = conditions := by
  apply h.eq_of_length_le
  rw [List.length_singleton]
  exact List.length_pos_iff.mpr h_some

/-- Idle conditions contribute nothing to a group. -/
theorem Padded.renderMembers_eq {conditions padded : List Condition}
    (h : Padded conditions padded) (connective : Connective) :
    renderMembers connective padded = renderMembers connective conditions := by
  induction h with
  | nil => rfl
  | keep condition _ ih => rw [renderMembers_cons, renderMembers_cons, ih]
  | pad h_idle _ ih =>
      rw [renderMembers_cons, h_idle.members, ih]
      simp

end Condition

/-! ## WHERE clauses -/

namespace Fragment

/-- In a conjunction of its own, a text stands in parentheses. -/
theorem where_join_single (sql : String) :
    (if (Connective.and.join (nonempty sql).toList).isEmpty then ""
      else "WHERE " ++ Connective.and.join (nonempty sql).toList)
      = if sql.isEmpty then "" else "WHERE ( " ++ sql ++ " )" := by
  cases h_empty : sql.isEmpty with
  | true =>
      rw [nonempty, h_empty]
      rfl
  | false =>
      have h_parts : (nonempty sql).toList = [sql] := by
        rw [nonempty, h_empty]
        rfl
      have h_where : "WHERE ( " = "WHERE " ++ "( " := by decide
      rw [h_parts, Connective.isEmpty_join_cons, if_neg Bool.false_ne_true,
        if_neg Bool.false_ne_true, Connective.join, String.intercalate_singleton, h_where,
        String.append_assoc, String.append_assoc, String.append_assoc]
      rfl

/-- A fragment with idle conditions beside it is a conjunction of its own. -/
theorem run_filtered_of_padded_single {f : Fragment} {padded : List Condition}
    (h : Condition.Padded [.fragment f] padded) (c : Collector) :
    c.run (Fragment.filtered (Connective.and.group padded)).render
      = (if (c.run f.render).1.isEmpty then "" else "WHERE ( " ++ (c.run f.render).1 ++ " )",
        (c.run f.render).2) := by
  have h_members : renderMembers .and padded
      = do
        let sql ← f.render
        return (nonempty sql).toList := by
    rw [h.renderMembers_eq]
    show renderConditions [.fragment f] = _
    simp [renderConditions, Condition.render]
  rw [Fragment.render, Connective.render_group, h_members]
  exact Prod.ext (where_join_single (c.run f.render).1) rfl

/-- A WHERE clause keeps its text and its values if idle conditions are put between its
    conditions, as absent ones are, unless it is over a single fragment. This fragment is the
    condition as it stands, and stands in parentheses if anything was put in; its values stay,
    and without a text there is no clause in both cases. -/
theorem whereClause_padded :
    (∀ condition : Condition, condition.IsAbsent → condition.IsIdle) ∧
    ∀ conditions padded : List Condition, conditions ≠ [] → Condition.Padded conditions padded →
      ∃ f g, (whereClause conditions).Gives f ∧ (whereClause padded).Gives g ∧
        ∀ c : Collector,
          ((padded = conditions ∨ ∀ only, conditions ≠ [.fragment only]) →
            c.run g.render = c.run f.render) ∧
          ∀ only, conditions = [.fragment only] → padded ≠ conditions →
            let sql := (c.run only.render).1
            let after := (c.run only.render).2
            c.run f.render = (if sql.isEmpty then "" else "WHERE " ++ sql, after) ∧
            c.run g.render = (if sql.isEmpty then "" else "WHERE ( " ++ sql ++ " )", after) := by
  refine ⟨fun condition h => h.isIdle, ?_⟩
  intro conditions padded h_some h_padded
  have h_more : padded ≠ [] := by
    rintro rfl
    exact h_some (List.length_eq_zero_iff.mp (Nat.le_zero.mp h_padded.length_le))
  refine ⟨_, _, gives_whereClause h_some, gives_whereClause h_more, ?_⟩
  intro c
  constructor
  · rintro (rfl | h_several)
    · rfl
    · -- With more conditions there is no single fragment either.
      have h_severalMore : ∀ f, padded ≠ [.fragment f] := by
        rintro f rfl
        exact h_several f (h_padded.eq_of_single h_some).symm
      rw [over_eq_and h_several, over_eq_and h_severalMore, Fragment.render, Fragment.render,
        Connective.render_group, Connective.render_group, h_padded.renderMembers_eq]
  · rintro only rfl h_ne
    have h_several : ∀ f, padded ≠ [.fragment f] := by
      rintro f rfl
      exact h_ne (h_padded.eq_of_single h_some)
    rw [over_eq_and h_several]
    refine ⟨?_, run_filtered_of_padded_single h_padded c⟩
    rw [Fragment.render, Collector.run_bind, Collector.run_pure]
    rfl

/-- Around a text and a comparison, a map without columns and a disjunction of two absent
    conditions. -/
theorem whereClause_padded_optional :
    let kept : Condition := .comparison "a =" (some (.value (.int 1)))
    let nothing : Condition := .fragment (Condition.or [.comparison "x =" none, .text ""])
    let conditions : List Condition := [.text "b IS NULL", kept]
    let padded : List Condition := [.columns .empty, .text "b IS NULL", nothing, kept]
    conditions ≠ [] ∧ nothing.IsAbsent ∧ Condition.Padded conditions padded ∧
    (∀ only, conditions ≠ [.fragment only]) ∧
    ∃ f g, (whereClause conditions).Gives f ∧ (whereClause padded).Gives g ∧
      ∀ c : Collector, c.run g.render = c.run f.render := by
  intro kept nothing conditions padded
  have h_some : conditions ≠ [] := List.cons_ne_nil _ _
  have h_nothing : nothing.IsAbsent := by
    refine .group .or ?_
    intro condition h_condition
    simp only [List.mem_cons, List.not_mem_nil, or_false] at h_condition
    rcases h_condition with rfl | rfl
    · exact .comparison "x ="
    · exact .text
  have h_map : (Condition.columns .empty).IsAbsent := .columns rfl
  obtain ⟨h_idle, h_same⟩ := whereClause_padded
  have h_padded : Condition.Padded conditions padded :=
    .pad (h_idle _ h_map) (.keep _ (.pad (h_idle _ h_nothing) (.keep _ .nil)))
  have h_several : ∀ only, conditions ≠ [.fragment only] := by
    intro only h_only
    simp [conditions] at h_only
  obtain ⟨f, g, h_f, h_g, h_run⟩ := h_same conditions padded h_some h_padded
  exact ⟨h_some, h_nothing, h_padded, h_several, f, g, h_f, h_g,
    fun c => (h_run c).1 (.inr h_several)⟩

/-- An absent comparison beside a single fragment can be seen in the text. -/
theorem whereClause_padded_single :
    let conditions : List Condition := [.fragment (.text "id = 1")]
    let padded : List Condition := [.fragment (.text "id = 1"), .comparison "x =" none]
    let c : Collector := { style := .positional }
    (Condition.comparison "x =" none).IsAbsent ∧ Condition.Padded conditions padded ∧
    ∃ f g, (whereClause conditions).Gives f ∧ (whereClause padded).Gives g ∧
      (c.run f.render).1 = "WHERE id = 1" ∧ (c.run g.render).1 = "WHERE ( id = 1 )" ∧
      (c.run g.render).1 ≠ (c.run f.render).1 := by
  intro conditions padded c
  have h_absent : (Condition.comparison "x =" none).IsAbsent := .comparison "x ="
  refine ⟨h_absent, .keep _ (.pad h_absent.isIdle .nil), _, _, Logged.gives_pure _,
    Logged.gives_pure _, ?_, ?_, ?_⟩
  · rfl
  · rfl
  · decide

end Fragment

end SqlCompose
