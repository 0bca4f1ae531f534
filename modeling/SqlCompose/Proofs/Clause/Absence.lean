/-
  SqlCompose.Proofs.Clause.Absence

  What it means to record a column without a value. The entry is skipped wherever the map
  is used, but it is one: it takes the place of the column, and it replaces the value that
  was recorded before. So a map is not always the one in whose history the absences are
  left out (`valued`).

  It is the same, for everything that is made of the columns with a value, exactly if the
  history is `Undisturbed`: no column that was given a value is absent in the end, and no
  absence gave one a place in front of others (`undisturbed_iff`). This is so if absences and
  values are about different columns (`undisturbed_of_disjoint`).
-/
import Mathlib.Data.List.Induction
import SqlCompose.Proofs.Clause.Columns
import SqlCompose.Proofs.Clause.Group

namespace SqlCompose

namespace ColumnMap

/-! ## Histories without absences -/

/-- What a history records with a value. -/
def valued (history : List (String × Option Value)) : List (String × Option Value) :=
  history.filter (·.2.isSome)

/-- The absences of a history leave no trace in the columns with a value. -/
structure Undisturbed (history : List (String × Option Value)) : Prop where
  /-- No column that was given a value is without one in the end. -/
  last : ∀ column ∈ firstNamed (valued history), latest history column ≠ none
  /-- The columns that were given a value stand in the order in which they were. -/
  order : (firstNamed history).filter (· ∈ firstNamed (valued history))
    = firstNamed (valued history)

theorem mem_firstNamed_valued {history : List (String × Option Value)} {column : String} :
    column ∈ firstNamed (valued history) ↔ ∃ v, (column, some v) ∈ history := by
  rw [firstNamed, List.mem_eraseDups, List.mem_map]
  constructor
  · rintro ⟨⟨c, value⟩, h_entry, rfl⟩
    obtain ⟨h_mem, h_some⟩ := List.mem_filter.mp h_entry
    obtain ⟨v, rfl⟩ := Option.isSome_iff_exists.mp h_some
    exact ⟨v, h_mem⟩
  · rintro ⟨v, h_mem⟩
    exact ⟨(column, some v), List.mem_filter.mpr ⟨h_mem, rfl⟩, rfl⟩

/-- What is recorded last for a column with a value stays the last. -/
theorem latest_valued {history : List (String × Option Value)} {column : String} {v : Value}
    (h : latest history column = some v) : latest (valued history) column = some v := by
  induction history using List.reverseRecOn with
  | nil => exact h
  | append_singleton history entry ih =>
      obtain ⟨c, value⟩ := entry
      rw [latest_concat] at h
      rw [valued, List.filter_append, ← valued]
      by_cases h_c : column = c
      · rw [if_pos h_c] at h
        subst h
        rw [List.filter_cons_of_pos rfl, List.filter_nil, latest_concat, if_pos h_c]
      · rw [if_neg h_c] at h
        cases value with
        | none =>
            rw [List.filter_cons_of_neg (by simp), List.filter_nil, List.append_nil]
            exact ih h
        | some w =>
            rw [List.filter_cons_of_pos rfl, List.filter_nil, latest_concat, if_neg h_c]
            exact ih h

/-- What holds of a column in the end was recorded for it. -/
theorem mem_of_named {history : List (String × Option Value)} {column : String}
    (h : column ∈ firstNamed history) : (column, latest history column) ∈ history := by
  rw [firstNamed, List.mem_eraseDups, List.mem_map] at h
  obtain ⟨⟨c, value⟩, h_entry, rfl⟩ := h
  have h_some : (history.reverse.lookup c).isSome = true := by
    rw [List.lookup_isSome_iff]
    exact ⟨(c, value), List.mem_reverse.mpr h_entry, beq_self_eq_true c⟩
  obtain ⟨last, h_last⟩ := Option.isSome_iff_exists.mp h_some
  obtain ⟨newer, older, h_history, -⟩ := List.lookup_eq_some_iff.mp h_last
  rw [latest, h_last, Option.join_some, ← List.mem_reverse, h_history]
  exact List.mem_append_right _ List.mem_cons_self

theorem isSome_latest_valued {history : List (String × Option Value)} {column : String}
    (h : column ∈ firstNamed (valued history)) :
    (latest (valued history) column).isSome = true :=
  (List.mem_filter.mp (mem_of_named h)).2

/-- Without absences, every column that is named is left with a value. -/
theorem columns_settled_valued (history : List (String × Option Value)) :
    (settled (valued history)).map Prod.fst = firstNamed (valued history) := by
  rw [columns_settled, List.filter_eq_self]
  exact fun column h => isSome_latest_valued h

theorem latest_of_mem_settled {history : List (String × Option Value)} {column : String}
    {v : Value} (h : (column, v) ∈ settled history) : latest history column = some v := by
  obtain ⟨c, -, h_c⟩ := List.mem_filterMap.mp h
  obtain ⟨w, h_latest, h_pair⟩ := Option.map_eq_some_iff.mp h_c
  rw [Prod.mk.injEq] at h_pair
  rw [← h_pair.1, ← h_pair.2, h_latest]

/-- The columns that are left with a value determine the values. -/
theorem settled_eq_iff {history : List (String × Option Value)} :
    settled history = settled (valued history)
      ↔ (settled history).map Prod.fst = firstNamed (valued history) := by
  constructor
  · intro h
    rw [h, columns_settled_valued]
  · intro h
    have h_entries : settled history
        = ((settled history).map Prod.fst).filterMap fun column =>
            (latest (valued history) column).map (column, ·) := by
      rw [List.filterMap_map]
      conv => lhs; rw [← List.filterMap_some (l := settled history)]
      refine List.filterMap_congr fun entry h_entry => ?_
      rw [Function.comp_apply, latest_valued (latest_of_mem_settled h_entry), Option.map_some]
    rw [h_entries, h]
    rfl

/-- Where no column lost its value, the columns that were given one are those that are left
    with one. -/
theorem filter_valued_eq {history : List (String × Option Value)}
    (h : ∀ column ∈ firstNamed (valued history), latest history column ≠ none) :
    (firstNamed history).filter (· ∈ firstNamed (valued history))
      = (settled history).map Prod.fst := by
  rw [columns_settled]
  refine List.filter_congr fun column _ => ?_
  rw [Bool.eq_iff_iff, decide_eq_true_eq, Option.isSome_iff_ne_none]
  constructor
  · exact h column
  · intro h_some
    obtain ⟨v, h_latest⟩ := Option.ne_none_iff_exists'.mp h_some
    exact mem_firstNamed_of_latest (latest_valued h_latest)

theorem undisturbed_iff {history : List (String × Option Value)} :
    Undisturbed history ↔ settled history = settled (valued history) := by
  rw [settled_eq_iff]
  constructor
  · intro h
    rw [← filter_valued_eq h.last, h.order]
  · intro h
    have h_last : ∀ column ∈ firstNamed (valued history), latest history column ≠ none := by
      intro column h_column
      rw [← h, columns_settled, List.mem_filter] at h_column
      exact Option.isSome_iff_ne_none.mp h_column.2
    exact ⟨h_last, (filter_valued_eq h_last).trans h⟩

/-! ## Absences of other columns -/

/-- The history of some of the columns names these, in the order of the whole. -/
theorem firstNamed_filter (p : String → Bool) (history : List (String × Option Value)) :
    firstNamed (history.filter fun entry => p entry.1) = (firstNamed history).filter p := by
  induction history using List.reverseRecOn with
  | nil => rfl
  | append_singleton history entry ih =>
      obtain ⟨column, value⟩ := entry
      rw [List.filter_append]
      cases h_p : p column with
      | false =>
          have h_entry : [(column, value)].filter (fun entry => p entry.1) = [] :=
            List.filter_cons_of_neg (by simp [h_p])
          have h_column : [column].filter p = [] := List.filter_cons_of_neg (by simp [h_p])
          rw [h_entry, List.append_nil, ih]
          by_cases h_known : column ∈ firstNamed history
          · rw [firstNamed_concat_of_known h_known]
          · rw [firstNamed_concat_of_new h_known, List.filter_append, h_column, List.append_nil]
      | true =>
          have h_entry : [(column, value)].filter (fun entry => p entry.1) = [(column, value)] :=
            List.filter_cons_of_pos h_p
          have h_column : [column].filter p = [column] := List.filter_cons_of_pos h_p
          rw [h_entry]
          by_cases h_known : column ∈ firstNamed history
          · have h_kept : column ∈ firstNamed (history.filter fun entry => p entry.1) := by
              rw [ih]
              exact List.mem_filter.mpr ⟨h_known, h_p⟩
            rw [firstNamed_concat_of_known h_kept, firstNamed_concat_of_known h_known, ih]
          · have h_new : column ∉ firstNamed (history.filter fun entry => p entry.1) := by
              rw [ih]
              exact fun h => h_known (List.mem_of_mem_filter h)
            rw [firstNamed_concat_of_new h_new, firstNamed_concat_of_new h_known,
              List.filter_append, h_column, ih]

theorem undisturbed_of_disjoint {history : List (String × Option Value)}
    (h : ∀ column, (column, none) ∈ history → ∀ v, (column, some v) ∉ history) :
    Undisturbed history := by
  constructor
  · intro column h_column h_none
    obtain ⟨v, h_mem⟩ := mem_firstNamed_valued.mp h_column
    have h_named : column ∈ firstNamed history := by
      rw [firstNamed, List.mem_eraseDups]
      exact List.mem_map_of_mem h_mem
    have h_absent := mem_of_named h_named
    rw [h_none] at h_absent
    exact h column h_absent v h_mem
  · rw [← firstNamed_filter]
    -- What is recorded for a column with a value has a value.
    congr 1
    refine List.filter_congr fun entry h_entry => ?_
    rw [Bool.eq_iff_iff, decide_eq_true_eq, mem_firstNamed_valued, Option.isSome_iff_exists]
    obtain ⟨column, value⟩ := entry
    constructor
    · rintro ⟨v, h_mem⟩
      cases value with
      | none => exact absurd h_mem (h column h_entry v)
      | some w => exact ⟨w, rfl⟩
    · rintro ⟨v, rfl⟩
      exact ⟨v, h_entry⟩

/-! ## Clauses and groups -/

/-- Maps with the same columns and values can stand for each other in a group. -/
theorem render_group_replace {m n : ColumnMap} (h : m.present = n.present)
    (connective : Connective) (before after : List Condition) :
    (connective.group (before ++ .columns m :: after)).render
      = (connective.group (before ++ .columns n :: after)).render := by
  rw [Connective.render_group, Connective.render_group,
    renderMembers_replace (renderConditions_members h connective)]

/-- Conditions with a map among them are not a single fragment. -/
theorem columns_ne_fragment (m : ColumnMap) (before after : List Condition) (f : Fragment) :
    before ++ .columns m :: after ≠ [.fragment f] := by
  intro h
  have h_mem : Condition.columns m ∈ [Condition.fragment f] := by
    rw [← h]
    exact List.mem_append_right _ List.mem_cons_self
  cases List.mem_singleton.mp h_mem

/-- Maps with the same columns and values can stand for each other in a WHERE clause. -/
theorem gives_whereClause_replace {m n : ColumnMap} (h : m.present = n.present)
    (before after : List Condition) :
    ∃ f g, (Fragment.whereClause (before ++ .columns m :: after)).Gives f ∧
      (Fragment.whereClause (before ++ .columns n :: after)).Gives g ∧ f.render = g.render := by
  have h_some (m : ColumnMap) : before ++ .columns m :: after ≠ [] :=
    List.append_ne_nil_of_right_ne_nil _ (List.cons_ne_nil _ _)
  refine ⟨_, _, Fragment.gives_whereClause (h_some m), Fragment.gives_whereClause (h_some n), ?_⟩
  rw [Fragment.over_eq_and (columns_ne_fragment m before after),
    Fragment.over_eq_and (columns_ne_fragment n before after), Fragment.render, Fragment.render,
    render_group_replace h]

/-- A WHERE clause over a map alone is about its columns with a value. -/
theorem render_whereClause_columns (m : ColumnMap) :
    (Fragment.filtered (Fragment.over [.columns m])).render
      = do
        let parts ← renderEntries (withValues m.present)
        let sql := Connective.and.join parts
        return if sql.isEmpty then "" else "WHERE " ++ sql := by
  have h_members : renderMembers .and [.columns m] = renderEntries (withValues m.present) := by
    show renderConditions (m.conditions ++ []) = _
    rw [List.append_nil, renderConditions_conditions, renderEntries_present]
  have h_over : Fragment.over [.columns m] = Connective.and.group [.columns m] :=
    Fragment.over_eq_and (columns_ne_fragment m [] [])
  rw [h_over, Fragment.render, Connective.render_group, h_members, bind_assoc]
  rfl

/-- A map has the columns and values of the one in whose history the absences are left out
    exactly if the absences leave no trace, which they do not if they are about columns
    that are given no value. Rows and SET clauses are then the same or refused alike, and
    groups and WHERE clauses with the map anywhere among their conditions have the same text
    and the same values. -/
theorem Recorded.absences {m n : ColumnMap} {history : List (String × Option Value)}
    (h : m.Recorded history) (h_valued : n.Recorded (valued history)) :
    (m.present = n.present ↔ Undisturbed history) ∧
    ((∀ column, (column, none) ∈ history → ∀ v, (column, some v) ∉ history) →
      Undisturbed history) ∧
    (Undisturbed history →
      Fragment.insertRow m = Fragment.insertRow n ∧ Fragment.assign m = Fragment.assign n ∧
      ∀ before after : List Condition,
        (∀ connective : Connective, ∀ c : Collector,
          c.run (connective.group (before ++ .columns m :: after)).render
            = c.run (connective.group (before ++ .columns n :: after)).render) ∧
        ∃ f g, (Fragment.whereClause (before ++ .columns m :: after)).Gives f ∧
          (Fragment.whereClause (before ++ .columns n :: after)).Gives g ∧
          ∀ c : Collector, c.run f.render = c.run g.render) := by
  have h_iff : m.present = n.present ↔ Undisturbed history := by
    rw [h.present_eq, h_valued.present_eq, undisturbed_iff]
  refine ⟨h_iff, undisturbed_of_disjoint, ?_⟩
  intro h_undisturbed
  have h_present := h_iff.mpr h_undisturbed
  refine ⟨?_, ?_, ?_⟩
  · rw [Fragment.insertRow, Fragment.insertRow, h_present]
  · rw [Fragment.assign, Fragment.assign, h_present]
  · intro before after
    obtain ⟨f, g, h_f, h_g, h_render⟩ := gives_whereClause_replace h_present before after
    refine ⟨?_, f, g, h_f, h_g, ?_⟩
    · intro connective c
      rw [render_group_replace h_present]
    · intro c
      rw [h_render]

/-- Absences of a column that is given no value, before and between the others. -/
theorem Recorded.absences_elsewhere :
    let m := (((ColumnMap.empty.insert "note" none).insert "tenant" (some (.int 1))).insert
      "note" none).assign "org" (.text "acme")
    let n := (ColumnMap.empty.insert "tenant" (some (.int 1))).assign "org" (.text "acme")
    let history : List (String × Option Value) :=
      [("note", none), ("tenant", some (.int 1)), ("note", none), ("org", some (.text "acme"))]
    m.Recorded history ∧ n.Recorded (valued history) ∧ Undisturbed history ∧
    m.present = n.present ∧ Fragment.insertRow m = Fragment.insertRow n := by
  intro m n history
  have h : m.Recorded history :=
    (((Recorded.empty.insert "note" none).insert "tenant" (some (.int 1))).insert
      "note" none).assign "org" (.text "acme")
  have h_valued : n.Recorded (valued history) :=
    (Recorded.empty.insert "tenant" (some (.int 1))).assign "org" (.text "acme")
  obtain ⟨h_iff, h_disjoint, h_clauses⟩ := h.absences h_valued
  have h_undisturbed : Undisturbed history := by
    apply h_disjoint
    intro column h_absent v h_value
    have h_note : column = "note" := by simpa [history] using h_absent
    subst h_note
    simp [history] at h_value
  exact ⟨h, h_valued, h_undisturbed, h_iff.mpr h_undisturbed, (h_clauses h_undisturbed).1⟩

/-- An absence that is recorded behind a value takes it away. -/
theorem absence_replaces_value :
    let m := (ColumnMap.empty.assign "tenant" (.int 1)).insert "tenant" none
    let n := ColumnMap.empty.assign "tenant" (.int 1)
    let history : List (String × Option Value) := [("tenant", some (.int 1)), ("tenant", none)]
    let c : Collector := { style := .positional }
    m.Recorded history ∧ n.Recorded (valued history) ∧
    m.present = [] ∧ n.present = [("tenant", .int 1)] ∧
    (Fragment.insertRow m).Refuses .noColumn ∧ (∃ row, (Fragment.insertRow n).Gives row) ∧
    ∃ f g, (Fragment.whereClause [.columns m]).Gives f ∧
      (Fragment.whereClause [.columns n]).Gives g ∧
      (c.run f.render).1 = "" ∧ (c.run g.render).1 = "WHERE ( tenant = $1 )" := by
  intro m n history c
  have h : m.Recorded history :=
    (Recorded.empty.assign "tenant" (.int 1)).insert "tenant" none
  have h_valued : n.Recorded (valued history) := Recorded.empty.assign "tenant" (.int 1)
  have h_present : m.present = [] := h.present_eq
  have h_presentValued : n.present = [("tenant", .int 1)] := h_valued.present_eq
  have h_refused : m.present.isEmpty = true := by
    rw [h_present]
    rfl
  have h_given : n.present.isEmpty = false := by
    rw [h_presentValued]
    rfl
  refine ⟨h, h_valued, h_present, h_presentValued, Logged.refuses_iff.mpr h_refused,
    ⟨_, Fragment.gives_insertRow h_given⟩, _, _, Logged.gives_pure _, Logged.gives_pure _, ?_, ?_⟩
  · show (c.run (Fragment.filtered (Fragment.over [.columns m])).render).1 = ""
    rw [render_whereClause_columns, h_present]
    rfl
  · show (c.run (Fragment.filtered (Fragment.over [.columns n])).render).1 = _
    rw [render_whereClause_columns, h_presentValued]
    decide

end ColumnMap

end SqlCompose
