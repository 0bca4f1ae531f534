/-
  SqlCompose.Proofs.Vacuous.Leaf

  Leaves that contribute nothing, told from the data that they are made of
  (`Leaf.isVacuous`): an empty text, a comparison without an operand, a column map
  without a value, an object without members, no bound on the rows.

  Rendering tells them from their text, after the fact. The two agree on every leaf
  that is built, wherever it stands (`Leaf.blank_outlines`): its outlines are blank if
  it is vacuous, and otherwise one of them is not.
-/
import SqlCompose.Proofs.Leaf

namespace SqlCompose

/-! ## Blank outlines -/

/-- A group is blank if all its parts are. -/
theorem Connective.isBlank_outline (connective : Connective) (parts : List Outline) :
    (connective.outline parts).isBlank = parts.all Outline.isBlank := by
  rw [Connective.outline]
  by_cases h_none : (parts.filter (!Outline.isBlank ·)).isEmpty = true
  · have h_all : parts.all Outline.isBlank = true := by
      rw [List.isEmpty_iff, List.filter_eq_nil_iff] at h_none
      rw [List.all_eq_true]
      intro o h_o
      simpa using h_none o h_o
    rw [if_pos h_none, h_all]
    rfl
  · have h_some : parts.all Outline.isBlank = false := by
      rw [Bool.eq_false_iff]
      intro h_all
      rw [List.all_eq_true] at h_all
      apply h_none
      rw [List.isEmpty_iff, List.filter_eq_nil_iff]
      intro o h_o
      simp [h_all o h_o]
    rw [if_neg h_none, h_some]
    rfl

theorem Outline.isBlank_filtered (o : Outline) : o.filtered.isBlank = o.isBlank := by
  rw [filtered]
  cases h : o.isBlank with
  | true => rfl
  | false => rfl

theorem Outline.isBlank_text (s : String) : isBlank [.text s] = s.isEmpty := by
  rw [isBlank, isBlank, Bool.and_true]

theorem isEmpty_append_of_ne {s t : String} (h : s ≠ "") : (s ++ t).isEmpty = false := by
  rw [← Bool.not_eq_true, String.isEmpty_iff, String.append_eq_empty_iff]
  exact fun h_empty => h h_empty.1

/-- Wherever it stands, what has the role is blank, or is not. -/
structure Role.Blank (r : Role Outline) (b : Bool) : Prop where
  whole : r.whole.isBlank = b
  spliced : r.spliced.all Outline.isBlank = b
  only : r.only.isBlank = b

theorem Role.blank_single {o : Outline} {b : Bool} (h : o.isBlank = b) :
    (Role.single o).Blank b := by
  refine ⟨h, ?_, h⟩
  show [o].all Outline.isBlank = b
  rw [List.all_cons, List.all_nil, Bool.and_true]
  exact h

theorem Role.Blank.parts {r : Role Outline} {b : Bool} (h : r.Blank b)
    (connective : Connective) : (r.parts connective).all Outline.isBlank = b := by
  cases connective with
  | and => exact h.spliced
  | or => exact (Role.blank_single h.whole).spliced

/-- What is no fragment is blank everywhere if it is blank where it is spliced. -/
theorem Condition.blank_role {condition : Condition} {b : Bool}
    (h : ∀ f, condition ≠ .fragment f) (h_whole : condition.outline.isBlank = b)
    (h_spliced : (condition.spliced.map Condition.outline).all Outline.isBlank = b) :
    condition.role.Blank b := by
  rw [Condition.role_eq h]
  refine ⟨h_whole, h_spliced, ?_⟩
  rw [Connective.isBlank_outline]
  exact h_spliced

/-! ## Maps and objects -/

theorem ColumnMap.isBlank_entryOutline (entry : String × Option Value) :
    (ColumnMap.entryOutline entry).isBlank = entry.2.isNone := by
  obtain ⟨column, value⟩ := entry
  cases value with
  | none => rfl
  | some v => exact Operand.isBlank_outline (column ++ " =") (.value v)

/-- The entries of a map are blank if none of them has a value. -/
theorem ColumnMap.all_isBlank_entryOutline (m : ColumnMap) :
    (m.entries.toList.map ColumnMap.entryOutline).all Outline.isBlank = m.present.isEmpty := by
  rw [ColumnMap.present]
  induction m.entries.toList with
  | nil => rfl
  | cons entry entries ih =>
      rw [List.map_cons, List.all_cons, ColumnMap.isBlank_entryOutline, ih]
      obtain ⟨column, value⟩ := entry
      cases value with
      | none => rfl
      | some v => rfl

/-- Whether the data is an object without members. -/
def Document.isEmpty (d : Document) : Bool :=
  match d.json with
  | .object members => members.isEmpty
  | _ => false

/-- Data that is read describes no comparison only if it is empty. -/
theorem Document.isEmpty_comparisons {d : Document} {condition : Condition}
    (h : Condition.read d.json = .ok condition) : d.json.comparisons.isEmpty = d.isEmpty := by
  obtain ⟨-, ⟨h_object, q, h_list, -⟩ | ⟨h_object, m, rfl, -⟩⟩ := Condition.shape_of_read h
  · rw [h_list, Document.isEmpty]
    cases h_json : d.json with
    | object members => simp [h_json, Json.isObject] at h_object
    | null | bool _ | number _ | string _ | array _ => rfl
  · rw [Document.isEmpty]
    cases h_json : d.json with
    | null | bool _ | number _ | string _ | array _ => simp [h_json, Json.isObject] at h_object
    | object members =>
        rw [Json.comparisons]
        cases members with
        | nil => rfl
        | cons member rest =>
            -- The key of the first member is an identifier.
            rw [h_json] at h
            obtain ⟨⟨i, h_parse⟩, -⟩ :=
              (Condition.read_object_eq_ok_iff.mp h).1 member List.mem_cons_self
            rw [List.filterMap_cons_some (Condition.memberComparison_of_parse h_parse)]
            rfl

theorem Comparison.isBlank_outline (q : Comparison) : q.outline.isBlank = false :=
  Operand.isBlank_outline _ _

theorem Document.blank_outlines {d : Document} {condition : Condition}
    (h : Condition.read d.json = .ok condition) : d.outlines.Blank d.isEmpty := by
  have h_parts : (d.json.comparisons.map Comparison.outline).all Outline.isBlank = d.isEmpty := by
    rw [← Document.isEmpty_comparisons h]
    cases d.json.comparisons with
    | nil => rfl
    | cons q qs =>
        rw [List.map_cons, List.all_cons, Comparison.isBlank_outline]
        rfl
  have h_group : (Connective.and.outline (d.json.comparisons.map Comparison.outline)).isBlank
      = d.isEmpty := by
    rw [Connective.isBlank_outline]
    exact h_parts
  refine ⟨?_, h_parts, h_group⟩
  show (d.whole Comparison.outline Connective.and.outline).isBlank = _
  unfold whole
  split
  · rename_i q _ h_one
    rw [← h_parts, h_one, List.map_singleton, List.all_cons, List.all_nil, Bool.and_true]
  · exact h_group

/-! ## Leaves -/

theorem isBlank_boundOutline (which : RowBound) (rows : Option Int64) :
    (boundOutline which rows).isBlank = (rows.getD 0 == 0) := by
  rw [boundOutline]
  cases rows with
  | none => rfl
  | some n =>
      by_cases h_zero : n = 0
      · subst h_zero
        rfl
      · have h_kept : (some n).filter (· ≠ 0) = some n := by simp [h_zero]
        rw [h_kept, Option.getD_some, beq_false_of_ne h_zero]
        show Outline.isBlank (.text _ :: [.value _]) = false
        rw [Outline.isBlank, Outline.isBlank, Bool.and_false]

namespace Leaf

/-- Whether a leaf contributes nothing, by its data. -/
def isVacuous : Leaf → Bool
  | .text sql | .raw sql => sql.isEmpty
  | .comparison _ operand => operand.isNone
  | .columns m => m.present.isEmpty
  | .document d => d.isEmpty
  | .bound _ rows => rows.getD 0 == 0
  | .row _ | .assignments _ | .select _ => false

/-- The leaf is not refused. -/
def IsBuilt (leaf : Leaf) : Prop := ∃ condition, leaf.build.Gives condition

/-- A leaf that is built is blank, wherever it stands, if it is vacuous, and only
    then. -/
theorem blank_outlines {leaf : Leaf} (h : leaf.IsBuilt) :
    leaf.outlines.Blank leaf.isVacuous := by
  obtain ⟨condition, h_gives⟩ := h
  cases leaf with
  | text sql =>
      have h_text : (Condition.text sql).outline.isBlank = sql.isEmpty := by
        rw [Condition.outline, Outline.isBlank_text]
      refine Condition.blank_role (fun f h_f => by cases h_f) h_text ?_
      exact (Role.blank_single h_text).spliced
  | raw sql => exact Role.blank_single (Outline.isBlank_text sql)
  | comparison head operand =>
      have h_operand : (Condition.comparison head operand).outline.isBlank = operand.isNone := by
        rw [Condition.outline]
        cases operand with
        | none => rfl
        | some operand => exact Operand.isBlank_outline head operand
      refine Condition.blank_role (fun f h_f => by cases h_f) h_operand ?_
      exact (Role.blank_single h_operand).spliced
  | columns m =>
      refine Condition.blank_role (fun f h_f => by cases h_f) ?_ ?_
      · rw [Condition.outline, Connective.isBlank_outline, m.all_isBlank_entryOutline]
        rfl
      · rw [Condition.spliced, outlines_conditions, m.all_isBlank_entryOutline]
        rfl
  | document d => exact Document.blank_outlines (Condition.read_of_ofJson (h_gives #[]))
  | row m =>
      apply Role.blank_single
      rw [rowOutline, Outline.isBlank, String.append_assoc,
        isEmpty_append_of_ne (by decide), Bool.false_and]
      rfl
  | assignments m => exact Role.blank_single rfl
  | select names =>
      obtain ⟨f, between, h_clause, -⟩ := Logged.of_outcome_bind (h_gives #[])
      obtain ⟨texts, h_texts, -⟩ := Fragment.select_of_outcome h_clause
      rw [outlines, h_texts]
      apply Role.blank_single
      rw [Outline.isBlank_text, isEmpty_append_of_ne (by decide)]
      rfl
  | bound which rows => exact Role.blank_single (isBlank_boundOutline which rows)

/-- Nothing refuses a leaf that is vacuous. -/
theorem isBuilt_of_isVacuous {leaf : Leaf} (h : leaf.isVacuous = true) : leaf.IsBuilt := by
  cases leaf with
  | text _ | raw _ | comparison _ _ | columns _ => exact ⟨_, Logged.gives_pure _⟩
  | bound which rows =>
      cases which with
      | limit | offset => exact ⟨_, Logged.gives_pure _⟩
  | row _ | assignments _ | select _ => cases h
  | document d =>
      have h_json : d.json = .object [] := by
        rw [isVacuous, Document.isEmpty] at h
        cases h_json : d.json with
        | object members =>
            rw [h_json] at h
            rw [List.isEmpty_iff.mp h]
        | null | bool _ | number _ | string _ | array _ => simp [h_json] at h
      have h_read : Condition.read d.json = .ok (.columns .empty) := by
        rw [h_json]
        rfl
      exact ⟨_, Condition.gives_of_read h_read⟩

end Leaf

end SqlCompose
