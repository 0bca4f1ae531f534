/-
  SqlCompose.Proofs.ColumnMap.History

  Column maps and the histories that they come from. A history is what was recorded,
  from first to last: columns with their values, some of them more than once and some
  without a value. `Recorded m history` says that `m` was built by recording `history`.

  A map holds of its history:

    * `firstNamed history`      -- the columns, in the order in which they were named
                                   first;
    * `latest history column`   -- what was recorded for a column last.

  `Follows` is what every step keeps (`Follows.insert`): the index is exact, and the
  entries are the columns that were named, each with what was recorded for it last.
  Everything that a map answers can be read off these entries (`Recorded.refines`).
-/
import SqlCompose.Fragment.Basic
import SqlCompose.Proofs.ColumnMap.Index

namespace SqlCompose.ColumnMap

/-- The map is built by recording the history, from the map without columns or from a
    list of columns with values. -/
inductive Recorded : ColumnMap → List (String × Option Value) → Prop where
  | empty : Recorded empty []
  | ofList (entries : List (String × Value)) :
      Recorded (ofList entries) (entries.map fun (column, value) => (column, some value))
  | assign {m : ColumnMap} {history : List (String × Option Value)} (h : Recorded m history)
      (column : String) (value : Value) :
      Recorded (m.assign column value) (history ++ [(column, some value)])
  | insert {m : ColumnMap} {history : List (String × Option Value)} (h : Recorded m history)
      (column : String) (value : Option Value) :
      Recorded (m.insert column value) (history ++ [(column, value)])

/-! ## What a history says -/

/-- The columns of a history, each where it is named first. -/
def firstNamed (history : List (String × Option Value)) : List String :=
  (history.map Prod.fst).eraseDups

/-- What a history records for a column last; `none` is recorded for no value. -/
def latest (history : List (String × Option Value)) (column : String) : Option Value :=
  (history.reverse.lookup column).join

theorem firstNamed_concat_of_known {history : List (String × Option Value)} {column : String}
    (h : column ∈ firstNamed history) (value : Option Value) :
    firstNamed (history ++ [(column, value)]) = firstNamed history := by
  rw [firstNamed, List.mem_eraseDups] at h
  have h_removed : [column].removeAll (history.map Prod.fst) = [] := by
    simp [List.removeAll, h]
  rw [firstNamed, List.map_append, List.eraseDups_append, List.map_singleton, h_removed]
  exact List.append_nil _

theorem firstNamed_concat_of_new {history : List (String × Option Value)} {column : String}
    (h : column ∉ firstNamed history) (value : Option Value) :
    firstNamed (history ++ [(column, value)]) = firstNamed history ++ [column] := by
  rw [firstNamed, List.mem_eraseDups] at h
  have h_removed : [column].removeAll (history.map Prod.fst) = [column] := by
    simp [List.removeAll, h]
  rw [firstNamed, List.map_append, List.eraseDups_append, List.map_singleton, h_removed]
  rfl

theorem latest_concat (history : List (String × Option Value)) (column : String)
    (value : Option Value) (c : String) :
    latest (history ++ [(column, value)]) c = if c = column then value else latest history c := by
  rw [latest, latest, List.reverse_concat, List.lookup_cons]
  by_cases h : c = column
  · rw [if_pos h, beq_iff_eq.mpr h]
    rfl
  · rw [if_neg h, beq_eq_false_iff_ne.mpr h]

/-! ## What every step keeps -/

/-- The index is exact, and the entries are those of the history. -/
structure Follows (m : ColumnMap) (history : List (String × Option Value)) : Prop where
  indexed : m.Indexed
  entries_eq : m.entries.toList
    = (firstNamed history).map fun column => (column, latest history column)

theorem follows_empty : empty.Follows [] where
  indexed := indexed_empty
  entries_eq := rfl

theorem Follows.columns_eq {m : ColumnMap} {history : List (String × Option Value)}
    (h : m.Follows history) : m.columns = firstNamed history := by
  rw [columns, h.entries_eq, List.map_map]
  exact List.map_id _

/-- Recording goes on with the history: a known column keeps its place and has a new
    value, and a new column goes to the end. -/
theorem Follows.insert {m : ColumnMap} {history : List (String × Option Value)}
    (h : m.Follows history) (column : String) (value : Option Value) :
    (m.insert column value).Follows (history ++ [(column, value)]) := by
  refine ⟨h.indexed.insert column value, ?_⟩
  by_cases h_known : column ∈ firstNamed history
  · have h_column : column ∈ m.columns := h.columns_eq ▸ h_known
    rw [entries_insert_of_known h.indexed h_column, h.entries_eq,
      firstNamed_concat_of_known h_known, List.map_map]
    refine List.map_congr_left fun c _ => ?_
    rw [latest_concat]
    by_cases h_c : c = column
    · simp [h_c]
    · simp [h_c]
  · have h_column : column ∉ m.columns := h.columns_eq ▸ h_known
    rw [entries_insert_of_new h.indexed h_column, h.entries_eq,
      firstNamed_concat_of_new h_known, List.map_append, List.map_singleton, latest_concat,
      if_pos rfl]
    congr 1
    refine List.map_congr_left fun c h_c => ?_
    -- The other columns are others than the new one.
    have h_other : c ≠ column := fun h_eq => h_known (h_eq ▸ h_c)
    rw [latest_concat, if_neg h_other]

theorem Follows.assignAll {m : ColumnMap} {history : List (String × Option Value)}
    (h : m.Follows history) (entries : List (String × Value)) :
    (m.assignAll entries).Follows
      (history ++ entries.map fun (column, value) => (column, some value)) := by
  induction entries generalizing m history with
  | nil =>
      rw [List.map_nil, List.append_nil]
      exact h
  | cons entry entries ih =>
      have h_rest := ih (h.insert entry.1 (some entry.2))
      rw [List.append_assoc] at h_rest
      exact h_rest

theorem Recorded.follows {m : ColumnMap} {history : List (String × Option Value)}
    (h : m.Recorded history) : m.Follows history := by
  induction h with
  | empty => exact follows_empty
  | ofList entries => exact follows_empty.assignAll entries
  | assign h column value ih => exact ih.insert column (some value)
  | insert h column value ih => exact ih.insert column value

/-! ## What a map answers -/

/-- The map is the ordered map of the history, in all that it answers. -/
structure Refines (m : ColumnMap) (history : List (String × Option Value)) : Prop where
  /-- No column has two entries. -/
  nodup : (m.entries.toList.map Prod.fst).Nodup
  /-- The entries are the columns in the order in which they were named first, each with
      what was recorded for it last. -/
  entries_eq : m.entries.toList
    = (firstNamed history).map fun column => (column, latest history column)
  /-- The index has exactly the columns, at exactly their positions. -/
  index_eq : ∀ (column : String) (position : Nat),
    m.index[column]? = some position ↔ (firstNamed history)[position]? = some column
  /-- A position of the index is one of an entry, which can be written. -/
  index_lt : ∀ (column : String) (position : Nat),
    m.index[column]? = some position → position < m.entries.size
  /-- All columns count, with or without a value. -/
  size_eq : m.size = (firstNamed history).length
  /-- The columns with a value keep their order. -/
  present_eq : m.present
    = (firstNamed history).filterMap fun column => (latest history column).map (column, ·)
  /-- Every column is a comparison, in order; without a value it has no operand. -/
  conditions_eq : m.conditions
    = (firstNamed history).map fun column =>
        .comparison (column ++ " =") ((latest history column).map .value)

theorem Follows.toRefines {m : ColumnMap} {history : List (String × Option Value)}
    (h : m.Follows history) : m.Refines history where
  nodup := h.indexed.nodup_columns
  entries_eq := h.entries_eq
  index_eq := by
    rw [← h.columns_eq]
    exact h.indexed.index_eq
  index_lt := by
    intro column position h_index
    have h_position := (h.indexed.index_eq column position).mp h_index
    rw [← length_columns]
    exact (List.getElem?_eq_some_iff.mp h_position).1
  size_eq := by
    rw [← h.columns_eq, length_columns]
    rfl
  present_eq := by
    rw [present, h.entries_eq, List.filterMap_map]
    rfl
  conditions_eq := by
    rw [conditions, h.entries_eq, List.map_map]
    rfl

/-- A map that was built by recording a history is the ordered map of the history: each
    column once, where it was named first and with what was recorded for it last, and an
    index that is exact. Two such maps are equal if and only if their entries are,
    whatever their histories. -/
theorem Recorded.refines {m : ColumnMap} {history : List (String × Option Value)}
    (h : m.Recorded history) :
    m.Refines history ∧
      ∀ (n : ColumnMap) (other : List (String × Option Value)), n.Recorded other →
        ((m == n) = true ↔ (m.entries == n.entries) = true) := by
  refine ⟨h.follows.toRefines, ?_⟩
  intro n other h_other
  rw [h.follows.indexed.beq_eq h_other.follows.indexed]

/-- A column loses its value and gets another. The map is equal to the one in which only
    the last value was recorded. -/
theorem Recorded.refines_reassigned :
    let m := ((ColumnMap.ofList [("a", .int 1), ("b", .int 2)]).insert "a" none).assign "a" (.int 9)
    let history : List (String × Option Value) :=
      [("a", some (.int 1)), ("b", some (.int 2)), ("a", none), ("a", some (.int 9))]
    let n := (ColumnMap.empty.assign "a" (.int 9)).assign "b" (.int 2)
    m.Recorded history ∧ m.Refines history ∧
      m.entries.toList = [("a", some (.int 9)), ("b", some (.int 2))] ∧ (m == n) = true := by
  intro m history n
  have h : m.Recorded history :=
    ((Recorded.ofList [("a", .int 1), ("b", .int 2)]).insert "a" none).assign "a" (.int 9)
  have h_other : n.Recorded [("a", some (.int 9)), ("b", some (.int 2))] :=
    (Recorded.empty.assign "a" (.int 9)).assign "b" (.int 2)
  obtain ⟨h_refines, h_equal⟩ := h.refines
  have h_entries : m.entries.toList = [("a", some (.int 9)), ("b", some (.int 2))] :=
    h_refines.entries_eq
  have h_others : n.entries.toList = [("a", some (.int 9)), ("b", some (.int 2))] :=
    h_other.refines.1.entries_eq
  refine ⟨h, h_refines, h_entries, (h_equal n _ h_other).mpr ?_⟩
  rw [← Array.beq_toList, h_entries, h_others]
  rfl

end SqlCompose.ColumnMap
