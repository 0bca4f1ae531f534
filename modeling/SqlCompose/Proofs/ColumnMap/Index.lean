/-
  SqlCompose.Proofs.ColumnMap.Index

  The invariant of column maps: the index gives every column its position among the
  entries, and nothing else (`ColumnMap.Indexed`). It holds of the map without
  columns and `insert` keeps it (`Indexed.insert`), so it holds of every map that is
  built from `empty`.

  What `insert` does to the entries is then a matter of the columns alone: a column
  that is new goes to the end (`entries_insert_of_new`), and one that is known keeps
  its place (`entries_insert_of_known`). So the entries determine the index, and maps
  are equal if their entries are (`Indexed.beq_eq`).
-/
import SqlCompose.ColumnMap

namespace SqlCompose.ColumnMap

/-- The columns, in the order in which they were first named. -/
def columns (m : ColumnMap) : List String := m.entries.toList.map Prod.fst

/-- The index has every column at its position. -/
structure Indexed (m : ColumnMap) : Prop where
  index_eq : ∀ (column : String) (position : Nat),
    m.index[column]? = some position ↔ m.columns[position]? = some column

theorem indexed_empty : Indexed empty where
  index_eq := by
    intro column position
    simp [empty, columns]

/-- A column without a position is not among the columns. -/
theorem Indexed.not_mem_columns {m : ColumnMap} (h : m.Indexed) {column : String}
    (h_none : m.index[column]? = none) : column ∉ m.columns := by
  intro h_mem
  obtain ⟨position, h_position⟩ := List.mem_iff_getElem?.mp h_mem
  rw [← h.index_eq, h_none] at h_position
  simp at h_position

theorem Indexed.index_of_not_mem {m : ColumnMap} (h : m.Indexed) {column : String}
    (h_new : column ∉ m.columns) : m.index[column]? = none := by
  cases h_index : m.index[column]? with
  | none => rfl
  | some position =>
      rw [h.index_eq] at h_index
      exact absurd (List.mem_of_getElem? h_index) h_new

/-- Replacing a value leaves the columns as they are. -/
theorem columns_modify (m : ColumnMap) (position : Nat) (value : Option Value) :
    columns { m with entries := m.entries.modify position fun (name, _) => (name, value) }
      = m.columns := by
  have h_names (entries : List (String × Option Value)) :
      (entries.modify position fun (name, _) => (name, value)).map Prod.fst
        = entries.map Prod.fst := by
    induction entries generalizing position with
    | nil => simp
    | cons entry rest ih =>
        cases position with
        | zero => simp
        | succ position => simp [ih]
  rw [columns, Array.toList_modify, h_names]
  rfl

theorem columns_push (m : ColumnMap) (column : String) (value : Option Value)
    (index : Std.HashMap String Nat) :
    columns { entries := m.entries.push (column, value), index } = m.columns ++ [column] := by
  simp [columns]

/-- A column stands in one place only. -/
theorem Indexed.nodup_columns {m : ColumnMap} (h : m.Indexed) : m.columns.Nodup := by
  rw [List.Nodup, List.pairwise_iff_getElem]
  intro i j h_i h_j h_lt h_eq
  have h_first := (h.index_eq m.columns[i] i).mpr (List.getElem?_eq_getElem h_i)
  have h_second := (h.index_eq m.columns[i] j).mpr (by rw [h_eq, List.getElem?_eq_getElem h_j])
  rw [h_first, Option.some.injEq] at h_second
  omega

theorem length_columns (m : ColumnMap) : m.columns.length = m.entries.size := by
  rw [columns, List.length_map, Array.length_toList]

/-- Recording a value keeps index and entries in step. -/
theorem Indexed.insert {m : ColumnMap} (h : m.Indexed) (column : String)
    (value : Option Value) : (m.insert column value).Indexed := by
  constructor
  intro c position
  cases h_index : m.index[column]? with
  | some known =>
      have h_insert : m.insert column value
          = { m with entries := m.entries.modify known fun (name, _) => (name, value) } := by
        rw [ColumnMap.insert, h_index]
      rw [h_insert, columns_modify]
      exact h.index_eq c position
  | none =>
      have h_insert : m.insert column value
          = { entries := m.entries.push (column, value)
              index := m.index.insert column m.entries.size } := by
        rw [ColumnMap.insert, h_index]
      have h_new := h.not_mem_columns h_index
      rw [h_insert, columns_push, Std.HashMap.getElem?_insert, ← length_columns]
      by_cases h_c : column = c
      · subst h_c
        rw [if_pos (beq_self_eq_true column), Option.some.injEq]
        constructor
        · intro h_position
          rw [← h_position, List.getElem?_concat_length]
        · intro h_position
          -- The column is new, so it can stand only at the end.
          by_cases h_lt : position < m.columns.length
          · rw [List.getElem?_append_left h_lt] at h_position
            exact absurd (List.mem_of_getElem? h_position) h_new
          · have h_le := (List.getElem?_eq_some_iff.mp h_position).1
            rw [List.length_append, List.length_singleton] at h_le
            omega
      · rw [if_neg (by simpa using h_c), h.index_eq]
        by_cases h_lt : position < m.columns.length
        · rw [List.getElem?_append_left h_lt]
        · rw [List.getElem?_append_right (by omega), List.getElem?_eq_none (by omega)]
          constructor
          · intro h_none
            simp at h_none
          · intro h_last
            have h_eq := List.mem_of_getElem? h_last
            rw [List.mem_singleton] at h_eq
            exact absurd h_eq.symm h_c

/-- A new column goes to the end. -/
theorem entries_insert_of_new {m : ColumnMap} (h : m.Indexed) {column : String}
    (h_new : column ∉ m.columns) (value : Option Value) :
    (m.insert column value).entries.toList = m.entries.toList ++ [(column, value)] := by
  rw [ColumnMap.insert, h.index_of_not_mem h_new]
  simp

/-- A column that is known keeps its place, and its value is replaced. -/
theorem entries_insert_of_known {m : ColumnMap} (h : m.Indexed) {column : String}
    (h_known : column ∈ m.columns) (value : Option Value) :
    (m.insert column value).entries.toList
      = m.entries.toList.map fun (c, v) => if c = column then (c, value) else (c, v) := by
  obtain ⟨position, h_position⟩ := List.mem_iff_getElem?.mp h_known
  have h_index : m.index[column]? = some position := (h.index_eq column position).mpr h_position
  have h_insert : (m.insert column value).entries
      = m.entries.modify position fun (name, _) => (name, value) := by
    rw [ColumnMap.insert, h_index]
  rw [h_insert, Array.toList_modify]
  refine List.ext_getElem? fun i => ?_
  rw [List.getElem?_modify, List.getElem?_map]
  cases h_entry : m.entries.toList[i]? with
  | none => rfl
  | some entry =>
      obtain ⟨c, v⟩ := entry
      have h_column : m.columns[i]? = some c := by
        rw [columns, List.getElem?_map, h_entry]
        rfl
      -- The index has one position for the column, so the entry is the one that is written.
      have h_here : position = i ↔ c = column := by
        constructor
        · rintro rfl
          rw [h_position, Option.some.injEq] at h_column
          exact h_column.symm
        · rintro rfl
          have h_same := (h.index_eq c i).mpr h_column
          rw [h_index, Option.some.injEq] at h_same
          exact h_same
      by_cases h_c : c = column
      · simp [h_c, h_here.mpr h_c]
      · have h_other : position ≠ i := fun h_eq => h_c (h_here.mp h_eq)
        simp [h_c, h_other]

/-! ## Assigning a list -/

/-- The map with the columns of a list assigned, from first to last. -/
def assignAll (m : ColumnMap) (entries : List (String × Value)) : ColumnMap :=
  entries.foldl (fun m (column, value) => m.assign column value) m

theorem ofList_eq_assignAll (entries : List (String × Value)) :
    ofList entries = empty.assignAll entries := rfl

theorem assignAll_cons (m : ColumnMap) (entry : String × Value) (entries : List (String × Value)) :
    m.assignAll (entry :: entries) = (m.assign entry.1 entry.2).assignAll entries := rfl

/-- New columns that differ from each other go to the end, in their order. -/
theorem entries_assignAll_of_new {m : ColumnMap} (h : m.Indexed)
    {entries : List (String × Value)} (h_nodup : (entries.map Prod.fst).Nodup)
    (h_new : ∀ column ∈ entries.map Prod.fst, column ∉ m.columns) :
    (m.assignAll entries).entries.toList
      = m.entries.toList ++ entries.map fun (column, value) => (column, some value) := by
  induction entries generalizing m with
  | nil => exact (List.append_nil _).symm
  | cons entry entries ih =>
      obtain ⟨column, value⟩ := entry
      rw [List.map_cons, List.nodup_cons] at h_nodup
      have h_first : (m.assign column value).entries.toList
          = m.entries.toList ++ [(column, some value)] :=
        entries_insert_of_new h (h_new column List.mem_cons_self) (some value)
      -- The other columns stay new, because they differ from this one.
      have h_rest_new : ∀ c ∈ entries.map Prod.fst, c ∉ (m.assign column value).columns := by
        intro c h_c
        rw [columns, h_first, List.map_append, List.mem_append, not_or]
        refine ⟨h_new c (List.mem_cons_of_mem _ h_c), ?_⟩
        rw [List.map_singleton, List.mem_singleton]
        rintro rfl
        exact h_nodup.1 h_c
      have h_indexed : (m.assign column value).Indexed := h.insert column (some value)
      rw [assignAll_cons, ih h_indexed h_nodup.2 h_rest_new, h_first, List.append_assoc]
      rfl

/-- A list in which no column is named twice has its entries in the map. -/
theorem entries_ofList {entries : List (String × Value)} (h : (entries.map Prod.fst).Nodup) :
    (ofList entries).entries.toList = entries.map fun (column, value) => (column, some value) := by
  rw [ofList_eq_assignAll, entries_assignAll_of_new indexed_empty h]
  · rfl
  · exact fun column _ h_column => absurd h_column List.not_mem_nil

/-! ## Equality -/

/-- Entries that are equal have the same columns, whatever equality of values is. -/
theorem columns_of_beq {entries others : List (String × Option Value)}
    (h : (entries == others) = true) : entries.map Prod.fst = others.map Prod.fst := by
  induction entries generalizing others with
  | nil =>
      cases others with
      | nil => rfl
      | cons other others => cases h
  | cons entry entries ih =>
      cases others with
      | nil => cases h
      | cons other others =>
          rw [List.cons_beq_cons, Bool.and_eq_true] at h
          have h_first : (entry.1 == other.1 && entry.2 == other.2) = true := h.1
          rw [Bool.and_eq_true, beq_iff_eq] at h_first
          rw [List.map_cons, List.map_cons, h_first.1, ih h.2]

/-- The columns determine the index, so the entries decide. -/
theorem Indexed.beq_eq {m n : ColumnMap} (h : m.Indexed) (h_other : n.Indexed) :
    (m == n) = (m.entries == n.entries) := by
  show (m.entries == n.entries && m.index == n.index) = (m.entries == n.entries)
  cases h_entries : m.entries == n.entries with
  | false => rfl
  | true =>
      rw [← Array.beq_toList] at h_entries
      have h_columns : m.columns = n.columns := columns_of_beq h_entries
      have h_index : m.index.Equiv n.index := by
        refine Std.HashMap.Equiv.of_forall_getElem?_eq fun column => Option.ext fun position => ?_
        rw [h.index_eq, h_other.index_eq, h_columns]
      rw [Bool.true_and, h_index.beq]

end SqlCompose.ColumnMap
