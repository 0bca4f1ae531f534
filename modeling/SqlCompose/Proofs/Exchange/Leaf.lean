/-
  SqlCompose.Proofs.Exchange.Leaf

  What it means to exchange the values of a leaf. `Leaf.Exchanged f` relates two
  leaves that differ in their sources only: every value `v` becomes `f v`, a number of
  rows other than zero any other such number, and JSON data gets other scalars.

  Exchanged leaves are both built or not at all (`Leaf.Exchanged.gives`), and then
  their outlines are alike (`Leaf.Exchanged.alike_outlines`).
-/
import SqlCompose.Proofs.Exchange.Json
import SqlCompose.Proofs.Leaf

namespace SqlCompose

/-! ## Sources -/

/-- The source that another one is exchanged for. -/
inductive Source.Exchanged (f : Value → Value) : Source → Source → Prop where
  | value (v : Value) : Exchanged f (.value v) (.value (f v))
  | rows {n m : Int64} (h_n : n ≠ 0) (h_m : m ≠ 0) : Exchanged f (.rows n) (.rows m)
  | json {j k : Json} (h : j.shape = k.shape) : Exchanged f (.json j) (.json k)

/-! ## Leaves -/

/-- The operand with `f` at every value. -/
def Operand.mapValues (f : Value → Value) : Operand → Operand
  | .value v => .value (f v)
  | .list vs => .list (vs.map f)

/-- The same columns, with and without values, and `f` at every value. -/
def ColumnMap.Mapped (f : Value → Value) (m n : ColumnMap) : Prop :=
  n.entries.toList = m.entries.toList.map fun (column, value) => (column, value.map f)

/-- The leaf with its values exchanged, and nothing else. -/
inductive Leaf.Exchanged (f : Value → Value) : Leaf → Leaf → Prop where
  | text (sql : String) : Exchanged f (.text sql) (.text sql)
  | comparison (head : String) (operand : Option Operand) :
      Exchanged f (.comparison head operand) (.comparison head (operand.map (·.mapValues f)))
  | columns {m n : ColumnMap} (h : m.Mapped f n) : Exchanged f (.columns m) (.columns n)
  | document {d e : Document} (h : d.json.Exchanged e.json) :
      Exchanged f (.document d) (.document e)
  | row {m n : ColumnMap} (h : m.Mapped f n) : Exchanged f (.row m) (.row n)
  | assignments {m n : ColumnMap} (h : m.Mapped f n) :
      Exchanged f (.assignments m) (.assignments n)
  | select (names : List String) : Exchanged f (.select names) (.select names)
  | rows (which : RowBound) {n m : Int64} (h_n : n ≠ 0) (h_m : m ≠ 0) :
      Exchanged f (.bound which (some n)) (.bound which (some m))
  | unbounded (which : RowBound) {rows : Option Int64} (h : rows = none ∨ rows = some 0) :
      Exchanged f (.bound which rows) (.bound which rows)
  | raw (sql : String) : Exchanged f (.raw sql) (.raw sql)

/-! ## Exchanging -/

theorem ColumnMap.Mapped.present {f : Value → Value} {m n : ColumnMap} (h : m.Mapped f n) :
    n.present = m.present.map fun (column, v) => (column, f v) := by
  rw [ColumnMap.present, ColumnMap.present, h]
  induction m.entries.toList with
  | nil => rfl
  | cons entry entries ih =>
      obtain ⟨column, value⟩ := entry
      cases value with
      | none => exact ih
      | some v =>
          rw [List.map_cons]
          exact congrArg ((column, f v) :: ·) ih

theorem ColumnMap.Mapped.isEmpty_present {f : Value → Value} {m n : ColumnMap}
    (h : m.Mapped f n) : n.present.isEmpty = m.present.isEmpty := by
  rw [h.present, List.isEmpty_map]

theorem Operand.alike_outline (head : String) (f : Value → Value) (operand : Operand) :
    Outline.Alike (operand.outline head) ((operand.mapValues f).outline head) := by
  cases operand with
  | value v => rfl
  | list vs => exact Outline.alike_list head (List.length_map f).symm

theorem ColumnMap.Mapped.alike_entries {f : Value → Value} {m n : ColumnMap}
    (h : m.Mapped f n) : List.Forall₂ Outline.Alike (m.entries.toList.map ColumnMap.entryOutline)
      (n.entries.toList.map ColumnMap.entryOutline) := by
  rw [h, List.map_map, List.forall₂_map_left_iff, List.forall₂_map_right_iff, List.forall₂_same]
  intro entry _
  obtain ⟨column, value⟩ := entry
  cases value with
  | none => rfl
  | some v => rfl

/-- A condition that is no fragment is alike in all places if its parts are. -/
theorem Condition.alike_role {a b : Condition} (h_a : ∀ f, a ≠ .fragment f)
    (h_b : ∀ f, b ≠ .fragment f) (h : Outline.Alike a.outline b.outline)
    (h_spliced : List.Forall₂ Outline.Alike (a.spliced.map Condition.outline)
      (b.spliced.map Condition.outline)) : Role.Related Outline.Alike a.role b.role := by
  rw [Condition.role_eq h_a, Condition.role_eq h_b]
  exact ⟨h, h_spliced, Outline.alike_outline .and h_spliced⟩

/-- The entries with `f` at every value. -/
def mapEntries (f : Value → Value) (entries : List (String × Value)) : List (String × Value) :=
  entries.map fun (column, v) => (column, f v)

theorem alike_rowOutline (f : Value → Value) (entries : List (String × Value)) :
    Outline.Alike (rowOutline entries) (rowOutline (mapEntries f entries)) := by
  have h_columns : (mapEntries f entries).map Prod.fst = entries.map Prod.fst := by
    rw [mapEntries, List.map_map]
    rfl
  have h_length : (entries.map Prod.snd).length = ((mapEntries f entries).map Prod.snd).length := by
    simp [mapEntries]
  have h_items := Outline.alike_joined_values ", " h_length
  rw [Outline.Alike] at h_items
  rw [Outline.Alike, rowOutline, rowOutline, h_columns, map_value_snd, map_value_snd]
  show Piece.text _ :: Outline.erase (_ ++ _) = Piece.text _ :: Outline.erase (_ ++ _)
  rw [Outline.erase_append, Outline.erase_append, h_items]

theorem alike_assignmentsOutline (f : Value → Value) (entries : List (String × Value)) :
    Outline.Alike (assignmentsOutline entries) (assignmentsOutline (mapEntries f entries)) := by
  rw [Outline.Alike, assignmentsOutline, assignmentsOutline]
  show Piece.text _ :: Outline.erase _ = Piece.text _ :: Outline.erase _
  rw [Outline.erase_joined, Outline.erase_joined, mapEntries, List.map_map, List.map_map,
    List.map_map]
  rfl

namespace Leaf.Exchanged

variable {f : Value → Value} {a b : Leaf}

theorem alike_outlines (h : Exchanged f a b) :
    Role.Related Outline.Alike a.outlines b.outlines := by
  cases h with
  | document h => exact Document.alike_outlines h
  | text sql =>
      exact Condition.alike_role (fun f h_f => by cases h_f) (fun f h_f => by cases h_f) rfl
        (.cons rfl .nil)
  | comparison head operand =>
      have h_alike : Outline.Alike (Condition.comparison head operand).outline
          (Condition.comparison head (operand.map (·.mapValues f))).outline := by
        rw [Condition.outline, Condition.outline]
        cases operand with
        | none => rfl
        | some operand => exact operand.alike_outline head f
      exact Condition.alike_role (fun f h_f => by cases h_f) (fun f h_f => by cases h_f) h_alike
        (.cons h_alike .nil)
  | @columns m n h =>
      have h_entries := h.alike_entries
      have h_alike : Outline.Alike (Condition.columns m).outline (Condition.columns n).outline := by
        rw [Condition.outline, Condition.outline]
        exact Outline.alike_outline .and h_entries
      have h_spliced : List.Forall₂ Outline.Alike
          ((Condition.columns m).spliced.map Condition.outline)
          ((Condition.columns n).spliced.map Condition.outline) := by
        rw [Condition.spliced, Condition.spliced, outlines_conditions, outlines_conditions]
        exact h_entries
      exact Condition.alike_role (fun f h_f => by cases h_f) (fun f h_f => by cases h_f) h_alike
        h_spliced
  | row h =>
      rw [outlines, outlines, h.present]
      exact Role.related_single (alike_rowOutline f _)
  | assignments h =>
      rw [outlines, outlines, h.present]
      exact Role.related_single (alike_assignmentsOutline f _)
  | select names =>
      rw [outlines]
      cases Fragment.columnTexts names with
      | ok texts => exact Role.related_single rfl
      | error cause => exact Role.related_single rfl
  | @rows which n m h_n h_m =>
      have h_some : ∀ k : Int64, k ≠ 0 → boundOutline which (some k)
          = [.text (which.keyword ++ " "), .value (.int k)] := by
        intro k h_k
        rw [boundOutline, Option.filter_some_pos (by simpa using h_k)]
      rw [outlines, outlines, h_some n h_n, h_some m h_m]
      exact Role.related_single rfl
  | unbounded which h => exact Role.related_single rfl
  | raw sql => exact Role.related_single rfl

/-- The sources are exchanged one by one. -/
theorem sources (h : Exchanged f a b) :
    List.Forall₂ (Source.Exchanged f) a.sources b.sources := by
  have h_values : ∀ vs : List Value,
      List.Forall₂ (Source.Exchanged f) (vs.map .value) ((vs.map f).map .value) := by
    intro vs
    rw [List.map_map, List.forall₂_map_left_iff, List.forall₂_map_right_iff, List.forall₂_same]
    exact fun v _ => .value v
  have h_present : ∀ {m n : ColumnMap}, m.Mapped f n → List.Forall₂ (Source.Exchanged f)
      (m.present.map (.value ·.2)) (n.present.map (.value ·.2)) := by
    intro m n h_mapped
    rw [h_mapped.present, List.map_map, List.forall₂_map_left_iff, List.forall₂_map_right_iff,
      List.forall₂_same]
    exact fun entry _ => .value entry.2
  cases h with
  | text _ | select _ | raw _ => exact .nil
  | comparison head operand =>
      cases operand with
      | none => exact .nil
      | some operand =>
          cases operand with
          | value v => exact .cons (.value v) .nil
          | list vs => exact h_values vs
  | columns h | row h | assignments h => exact h_present h
  | @document d e h =>
      rw [Leaf.sources, Leaf.sources, List.forall₂_map_left_iff, List.forall₂_map_right_iff]
      exact (Document.forall₂_bound h).imp fun _ _ h_shape => .json h_shape
  | @rows which n m h_n h_m =>
      rw [Leaf.sources, Leaf.sources, Option.filter_some_pos (by simpa using h_n),
        Option.filter_some_pos (by simpa using h_m)]
      exact .cons (.rows h_n h_m) .nil
  | unbounded which h =>
      -- Neither none nor zero is a bound, so nothing is bound.
      rcases h with rfl | rfl
      · exact .nil
      · exact .nil

/-- What is exchanged for a leaf that is built is built, and is a fragment if the leaf
    is one. -/
theorem gives (h : Exchanged f a b) {events after : Array Event} {condition : Condition}
    (h_build : a.build.outcome events = (.ok condition, after)) :
    ∃ other, b.build.Gives other ∧
      ∀ g, condition = .fragment g → ∃ g', other = .fragment g' := by
  -- Text, comparisons, maps and data are no fragments; everything else is one.
  have h_none : ∀ {built : Condition}, (∀ g, built ≠ .fragment g) → a.build.Gives built →
      ∀ (g : Fragment) (P : Prop), condition = .fragment g → P := by
    intro built h_built h_gives g P h_g
    rw [← h_gives.eq_of_outcome h_build] at h_g
    exact absurd h_g (h_built g)
  cases h with
  | text _ | comparison _ _ | columns _ =>
      exact ⟨_, Logged.gives_pure _,
        fun g => h_none (fun g h_g => by cases h_g) (Logged.gives_pure _) g _⟩
  | document h =>
      have h_read := Condition.read_of_ofJson h_build
      obtain ⟨other, h_other⟩ := h.read h_read
      exact ⟨other, Condition.gives_of_read h_other,
        fun g => h_none (Condition.ne_fragment_of_read h_read) (Condition.gives_of_read h_read) g _⟩
  | row h =>
      obtain ⟨f, between, h_clause, -⟩ := Logged.of_outcome_bind h_build
      have h_empty := Logged.of_outcome_unless h_clause
      rw [← h.isEmpty_present] at h_empty
      exact ⟨_, Logged.gives_fragment (Fragment.gives_insertRow h_empty), fun _ _ => ⟨_, rfl⟩⟩
  | assignments h =>
      obtain ⟨f, between, h_clause, -⟩ := Logged.of_outcome_bind h_build
      have h_empty := Logged.of_outcome_unless h_clause
      rw [← h.isEmpty_present] at h_empty
      exact ⟨_, Logged.gives_fragment (Fragment.gives_assign h_empty), fun _ _ => ⟨_, rfl⟩⟩
  | select names =>
      obtain ⟨f, between, h_clause, -⟩ := Logged.of_outcome_bind h_build
      obtain ⟨texts, -, h_gives⟩ := Fragment.select_of_outcome h_clause
      exact ⟨_, Logged.gives_fragment h_gives, fun _ _ => ⟨_, rfl⟩⟩
  | rows which _ _ | unbounded which _ =>
      cases which with
      | limit | offset => exact ⟨_, Logged.gives_pure _, fun _ _ => ⟨_, rfl⟩⟩
  | raw sql => exact ⟨_, Logged.gives_pure _, fun _ _ => ⟨_, rfl⟩⟩

end Leaf.Exchanged

end SqlCompose
