/-
  SqlCompose.Proofs.Clause.Columns

  Rows to insert and SET clauses over a column map. Both are about the columns that the
  map is left with a value for (`ColumnMap.settled`), each where it was named first: the
  columns and the markers are written in separate passes over them, and the values are
  bound in one.

    * `run_row`, `run_assignments`   -- what the two clauses write and bind, with the
                                        markers of the next places of the collector;
    * `Recorded.insertRow_assign`    -- the clauses over a map, told from its history.
-/
import SqlCompose.Proofs.ColumnMap.History
import SqlCompose.Proofs.Leaf

namespace SqlCompose

/-! ## What is left with a value -/

namespace ColumnMap

/-- The columns that a history leaves with a value, each where it is named first, with
    this value. -/
def settled (history : List (String × Option Value)) : List (String × Value) :=
  (firstNamed history).filterMap fun column => (latest history column).map (column, ·)

theorem Recorded.present_eq {m : ColumnMap} {history : List (String × Option Value)}
    (h : m.Recorded history) : m.present = settled history := h.follows.toRefines.present_eq

theorem mem_firstNamed_of_latest {history : List (String × Option Value)} {column : String}
    {v : Value} (h : latest history column = some v) : column ∈ firstNamed history := by
  rw [firstNamed, List.mem_eraseDups, List.mem_map]
  rw [latest, Option.join_eq_some_iff, List.lookup_eq_some_iff] at h
  obtain ⟨newer, older, h_history, -⟩ := h
  refine ⟨(column, some v), ?_, rfl⟩
  rw [← List.mem_reverse, h_history]
  exact List.mem_append_right _ List.mem_cons_self

/-- The columns that are left with a value keep the order in which they are named. -/
theorem columns_settled (history : List (String × Option Value)) :
    (settled history).map Prod.fst
      = (firstNamed history).filter fun column => (latest history column).isSome := by
  rw [settled, List.map_filterMap, ← List.filterMap_eq_filter]
  congr 1
  funext column
  cases h : latest history column with
  | none => simp [Option.guard, h]
  | some v => simp [Option.guard, h]

theorem settled_eq_nil_iff {history : List (String × Option Value)} :
    settled history = [] ↔ ∀ column, latest history column = none := by
  rw [settled, List.filterMap_eq_nil_iff]
  constructor
  · intro h column
    cases h_latest : latest history column with
    | none => rfl
    | some v =>
        -- A column with a value was named, so it would be left.
        have h_none := h column (mem_firstNamed_of_latest h_latest)
        rw [h_latest] at h_none
        cases h_none
  · intro h column _
    rw [h column]
    rfl

theorem Recorded.nodup_settled {m : ColumnMap} {history : List (String × Option Value)}
    (h : m.Recorded history) : ((settled history).map Prod.fst).Nodup := by
  rw [columns_settled, ← h.follows.columns_eq]
  exact h.follows.indexed.nodup_columns.filter _

end ColumnMap

/-! ## Rendering -/

/-- The markers of the next `n` places of a collector. -/
def Collector.nextMarkers (c : Collector) (n : Nat) : List String :=
  (List.range' (c.values.size + 1) n).map c.style.marker

theorem Collector.nextMarkers_succ (c : Collector) (v : Value) (n : Nat) :
    c.nextMarkers (n + 1)
      = c.style.marker (c.values.size + 1) :: (c.holding [v]).nextMarkers n := by
  rw [nextMarkers, nextMarkers, List.range'_succ, List.map_cons, holding_style, size_holding,
    List.length_singleton]

/-- A row is its columns and, in the same order, the next markers, and binds its values. -/
theorem run_row (entries : List (String × Value)) (c : Collector) :
    c.run (Fragment.row entries).render
      = ("(" ++ ", ".intercalate (entries.map Prod.fst) ++ ") VALUES (" ++
          ", ".intercalate (c.nextMarkers entries.length) ++ ")",
        c.holding (entries.map Prod.snd)) := by
  rw [Fragment.render, renderRow, Collector.run_bind, Collector.run_bindAll_markers,
    Collector.run_bindAll_collector, Collector.run_pure, List.length_map]
  rfl

theorem run_renderAssignments (entries : List (String × Value)) (c : Collector) :
    c.run (renderAssignments entries)
      = (List.zipWith (fun column marker => column ++ " = " ++ marker)
          (entries.map Prod.fst) (c.nextMarkers entries.length),
        c.holding (entries.map Prod.snd)) := by
  induction entries generalizing c with
  | nil =>
      rw [renderAssignments, Collector.run_pure, List.map_nil, List.map_nil, Collector.holding_nil]
      rfl
  | cons entry rest ih =>
      obtain ⟨column, v⟩ := entry
      have h_first : c.run (Collector.bind v)
          = (c.style.marker (c.values.size + 1), c.holding [v]) := Render.binds_bind v c
      rw [renderAssignments, Collector.run_bind, h_first, Collector.run_bind, ih,
        Collector.run_pure, Collector.holding_holding, List.length_cons, c.nextMarkers_succ v]
      rfl

/-- A SET clause has every column with the next marker, and binds its values. -/
theorem run_assignments (entries : List (String × Value)) (c : Collector) :
    c.run (Fragment.assignments entries).render
      = ("SET " ++ ", ".intercalate (List.zipWith (fun column marker => column ++ " = " ++ marker)
          (entries.map Prod.fst) (c.nextMarkers entries.length)),
        c.holding (entries.map Prod.snd)) := by
  rw [Fragment.render, Collector.run_bind, run_renderAssignments, Collector.run_pure]

/-! ## Clauses -/

/-- What is refused under a condition and given otherwise is refused only under it. -/
theorem Logged.refuses_iff {α : Type} {refused : Bool} {cause : ComposeError} {a : α} :
    (if refused then Logged.refuse cause else return a : Logged α).Refuses cause
      ↔ refused = true := by
  constructor
  · intro h
    cases h_refused : refused with
    | true => rfl
    | false => exact absurd (gives_unless cause a h_refused) (h.not_gives a)
  · intro h
    rw [h, if_pos rfl]
    exact refuses_refuse cause

namespace ColumnMap

/-- A row to insert and a SET clause over a map are refused if and only if no column was
    recorded with a value last. Otherwise they list the columns that were, in the order in
    which they were named first and each once, with the next markers in the same order,
    and bind the values of these columns in this order, behind what the collector holds. -/
theorem Recorded.insertRow_assign {m : ColumnMap} {history : List (String × Option Value)}
    (h : m.Recorded history) :
    ((Fragment.insertRow m).Refuses .noColumn ↔ ∀ column, latest history column = none) ∧
    ((Fragment.assign m).Refuses .noAssignment ↔ ∀ column, latest history column = none) ∧
    ((¬∀ column, latest history column = none) →
      let columns := (settled history).map Prod.fst
      let values := (settled history).map Prod.snd
      columns.Nodup ∧ ∃ row assignments,
        (Fragment.insertRow m).Gives row ∧ (Fragment.assign m).Gives assignments ∧
        ∀ c : Collector,
          c.run row.render
            = ("(" ++ ", ".intercalate columns ++ ") VALUES (" ++
                ", ".intercalate (c.nextMarkers columns.length) ++ ")", c.holding values) ∧
          c.run assignments.render
            = ("SET " ++ ", ".intercalate (List.zipWith
                (fun column marker => column ++ " = " ++ marker) columns
                (c.nextMarkers columns.length)), c.holding values)) := by
  have h_empty : m.present.isEmpty = true ↔ ∀ column, latest history column = none := by
    rw [h.present_eq, List.isEmpty_iff, settled_eq_nil_iff]
  refine ⟨Logged.refuses_iff.trans h_empty, Logged.refuses_iff.trans h_empty, ?_⟩
  intro h_some columns values
  have h_present : m.present.isEmpty = false := by
    rw [← Bool.not_eq_true, h_empty]
    exact h_some
  refine ⟨h.nodup_settled, _, _, Fragment.gives_insertRow h_present,
    Fragment.gives_assign h_present, ?_⟩
  intro c
  have h_length : columns.length = (settled history).length := List.length_map _
  rw [h.present_eq, run_row, run_assignments, h_length]
  exact ⟨rfl, rfl⟩

/-- One column loses its value and another one changes it, on a collector that holds a
    value. -/
theorem Recorded.insertRow_assign_overwritten :
    let m := (((ColumnMap.ofList [("a", .int 1), ("b", .int 2)]).insert "a" none).assign
      "b" (.text "x")).assign "c" (.int 3)
    let history : List (String × Option Value) :=
      [("a", some (.int 1)), ("b", some (.int 2)), ("a", none), ("b", some (.text "x")),
        ("c", some (.int 3))]
    let c : Collector := { style := .positional, values := #[.null] }
    m.Recorded history ∧ (¬∀ column, latest history column = none) ∧
    ∃ row assignments,
      (Fragment.insertRow m).Gives row ∧ (Fragment.assign m).Gives assignments ∧
      c.run row.render = ("(b, c) VALUES ($2, $3)", c.holding [.text "x", .int 3]) ∧
      c.run assignments.render = ("SET b = $2, c = $3", c.holding [.text "x", .int 3]) := by
  intro m history c
  have h : m.Recorded history :=
    (((Recorded.ofList [("a", .int 1), ("b", .int 2)]).insert "a" none).assign
      "b" (.text "x")).assign "c" (.int 3)
  have h_some : ¬∀ column, latest history column = none := by
    intro h_none
    have h_b : latest history "b" = none := h_none "b"
    cases h_b
  obtain ⟨-, -, h_clauses⟩ := h.insertRow_assign
  obtain ⟨-, row, assignments, h_row, h_assignments, h_run⟩ := h_clauses h_some
  refine ⟨h, h_some, row, assignments, h_row, h_assignments, ?_, ?_⟩
  · rw [(h_run c).1]
    refine Prod.ext (by decide) rfl
  · rw [(h_run c).2]
    refine Prod.ext (by decide) rfl

end ColumnMap

end SqlCompose
