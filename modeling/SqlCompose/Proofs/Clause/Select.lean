/-
  SqlCompose.Proofs.Clause.Select

  SELECT lists. A column of a list is a star, an identifier, or an identifier with `.*`
  behind it (`IsColumn`). The columns are looked at one after the other, and the `.*` at
  the end of a column before the column is read as an identifier.

  This order is of no consequence, because no identifier ends in a star
  (`IdentifierText.exists_last`): not even one in quotes, which ends in its quote. So a
  column is written exactly if it is one (`columnText_of_isColumn`), and otherwise it is
  refused for what is in front of its `.*`, or for itself if it has none
  (`columnText_of_not_isColumn`). From there to lists it is the first column that counts.
-/
import SqlCompose.Proofs.Identifier.Grammar
import SqlCompose.Proofs.Leaf

namespace SqlCompose

/-! ## The end of an identifier -/

namespace Identifier

theorem WordText.exists_last {cs : List Char} (h : WordText cs) :
    ∃ front c, cs = front ++ [c] ∧ c ≠ '*' := by
  cases h with
  | start h =>
      rename_i c
      refine ⟨[], c, rfl, ?_⟩
      rintro rfl
      exact absurd (isWordStart_iff.mpr h) (by decide)
  | more h_word h =>
      rename_i front c
      refine ⟨front, c, rfl, ?_⟩
      rintro rfl
      exact absurd (isWordRest_iff.mpr h) (by decide)

theorem PartText.exists_last {cs : List Char} (h : PartText cs) :
    ∃ front c, cs = front ++ [c] ∧ c ≠ '*' := by
  cases h with
  | word h => exact h.exists_last
  | quoted h h_some => exact ⟨_, '"', (List.cons_append ..).symm, by decide⟩

/-- No identifier ends in a star. -/
theorem IdentifierText.exists_last {cs : List Char} (h : IdentifierText cs) :
    ∃ front c, cs = front ++ [c] ∧ c ≠ '*' := by
  induction h with
  | part h => exact h.exists_last
  | dotted h h_rest ih =>
      rename_i first rest
      obtain ⟨front, c, rfl, h_c⟩ := ih
      exact ⟨first ++ '.' :: front, c, by simp, h_c⟩

end Identifier

namespace Fragment

/-! ## Columns -/

/-- What can stand in a SELECT list: a star, an identifier, or every column of what an
    identifier names. -/
inductive IsColumn : String → Prop where
  | star : IsColumn "*"
  | identifier {column : String} {i : Identifier} (h : Identifier.parse column = .ok i) :
      IsColumn column
  | table {table : String} {i : Identifier} (h : Identifier.parse table = .ok i) :
      IsColumn (table ++ ".*")

/-- What is wrong with a column: what is wrong with the table in front of its `.*`, or with
    the column itself if it does not end so. -/
inductive ColumnFault : String → ComposeError → Prop where
  | table {table : String} {cause : ComposeError} (h : Identifier.parse table = .error cause) :
      ColumnFault (table ++ ".*") cause
  | column {column : String} {cause : ComposeError} (h_plain : ∀ table, column ≠ table ++ ".*")
      (h : Identifier.parse column = .error cause) : ColumnFault column cause

theorem tableOf_append (table : String) : tableOf? (table ++ ".*") = some table := by
  have h_chars : (table ++ ".*").toList = table.toList ++ ['.', '*'] := by
    rw [String.toList_append]
    rfl
  have h_suffix : ['.', '*'] <:+ table.toList ++ ['.', '*'] := List.suffix_append _ _
  simp only [tableOf?, h_chars]
  rw [if_pos h_suffix]
  simp

theorem tableOf_eq_none_iff {column : String} :
    tableOf? column = none ↔ ∀ table, column ≠ table ++ ".*" := by
  constructor
  · rintro h table rfl
    rw [tableOf_append] at h
    cases h
  · intro h
    cases h_table : tableOf? column with
    | none => rfl
    | some table => exact absurd (eq_append_of_tableOf h_table) (h table)

theorem append_ne_star (table : String) : table ++ ".*" ≠ "*" := by
  intro h
  have h_length := congrArg String.length h
  have h_two : ".*".length = 2 := by decide
  have h_one : "*".length = 1 := by decide
  rw [String.length_append] at h_length
  omega

/-- An identifier does not end in `.*`. -/
theorem ne_append_of_parse {column : String} {i : Identifier}
    (h : Identifier.parse column = .ok i) (table : String) : column ≠ table ++ ".*" := by
  rintro rfl
  obtain ⟨-, h_text⟩ := Identifier.exists_parse_iff.mp ⟨i, h⟩
  obtain ⟨front, c, h_last, h_c⟩ := h_text.exists_last
  have h_chars : (table ++ ".*").toList = (table.toList ++ ['.']) ++ ['*'] := by
    rw [String.toList_append, List.append_assoc]
    rfl
  rw [h_chars] at h_last
  have h_star := (List.append_inj' h_last rfl).2
  exact h_c (List.singleton_inj.mp h_star).symm

/-- A column is written as it was given. -/
theorem columnText_of_isColumn {column : String} (h : IsColumn column) :
    columnText column = .ok column := by
  cases h with
  | star => rfl
  | identifier h =>
      by_cases h_star : column = "*"
      · rw [h_star]
        rfl
      · rw [columnText, if_neg h_star, tableOf_eq_none_iff.mpr (ne_append_of_parse h), h]
        exact congrArg Except.ok (Identifier.sql_of_parse h)
  | table h =>
      rename_i table i
      rw [columnText, if_neg (append_ne_star table), tableOf_append]
      simp only [h, Except.map, Identifier.sql_of_parse h]

theorem columnText_of_not_isColumn {column : String} (h : ¬IsColumn column) :
    ∃ detail, columnText column = .error (.invalidIdentifier detail) ∧
      ColumnFault column (.invalidIdentifier detail) := by
  have h_star : column ≠ "*" := by
    rintro rfl
    exact h .star
  rw [columnText, if_neg h_star]
  cases h_table : tableOf? column with
  | some table =>
      have h_column := eq_append_of_tableOf h_table
      subst h_column
      cases h_parse : Identifier.parse table with
      | ok i => exact absurd (.table h_parse) h
      | error cause =>
          obtain ⟨defect, -, rfl⟩ := Identifier.parse_eq_error h_parse
          exact ⟨_, by simp only [h_parse, Except.map], .table h_parse⟩
  | none =>
      cases h_parse : Identifier.parse column with
      | ok i => exact absurd (.identifier h_parse) h
      | error cause =>
          obtain ⟨defect, -, rfl⟩ := Identifier.parse_eq_error h_parse
          exact ⟨_, rfl, .column (tableOf_eq_none_iff.mp h_table) h_parse⟩

/-! ## Lists -/

/-- The first of the columns that is none is refused for `cause`. -/
def FirstFault (columns : List String) (cause : ComposeError) : Prop :=
  ∃ before bad after, columns = before ++ bad :: after ∧
    (∀ column ∈ before, IsColumn column) ∧ ¬IsColumn bad ∧ ColumnFault bad cause

theorem FirstFault.cons {column : String} {columns : List String} {cause : ComposeError}
    (h_column : IsColumn column) (h : FirstFault columns cause) :
    FirstFault (column :: columns) cause := by
  obtain ⟨before, bad, after, rfl, h_before, h_bad⟩ := h
  exact ⟨column :: before, bad, after, rfl, List.forall_mem_cons.mpr ⟨h_column, h_before⟩, h_bad⟩

theorem columnTexts_of_isColumn {columns : List String} (h : ∀ column ∈ columns, IsColumn column) :
    columnTexts columns = .ok columns := by
  induction columns with
  | nil => rfl
  | cons column columns ih =>
      rw [List.forall_mem_cons] at h
      rw [columnTexts, columnText_of_isColumn h.1, ih h.2]
      rfl

theorem columnTexts_of_not_isColumn {columns : List String}
    (h : ¬∀ column ∈ columns, IsColumn column) :
    ∃ detail, columnTexts columns = .error (.invalidIdentifier detail) ∧
      FirstFault columns (.invalidIdentifier detail) := by
  induction columns with
  | nil => exact absurd (fun column h_column => absurd h_column List.not_mem_nil) h
  | cons column columns ih =>
      rw [List.forall_mem_cons, not_and] at h
      by_cases h_column : IsColumn column
      · -- The fault is further on, and this column is read in vain.
        obtain ⟨detail, h_texts, h_fault⟩ := ih (h h_column)
        refine ⟨detail, ?_, h_fault.cons h_column⟩
        rw [columnTexts, columnText_of_isColumn h_column, h_texts]
        rfl
      · obtain ⟨detail, h_text, h_fault⟩ := columnText_of_not_isColumn h_column
        refine ⟨detail, ?_, [], column, columns, rfl, ?_, h_column, h_fault⟩
        · rw [columnTexts, h_text]
          rfl
        · exact fun c h_c => absurd h_c List.not_mem_nil

theorem gives_select {columns : List String} (h_some : columns ≠ [])
    (h : ∀ column ∈ columns, IsColumn column) :
    (select columns).Gives (.text ("SELECT " ++ ", ".intercalate columns)) := by
  rw [select, columnTexts_of_isColumn h]
  have h_texts : (Logged.ofExcept (.ok columns)).Gives columns := Logged.outcome_ofExcept_ok columns
  exact h_texts.bind (Logged.gives_unless _ _ (List.isEmpty_eq_false_iff.mpr h_some))

theorem refuses_select {columns : List String}
    (h : ¬(columns ≠ [] ∧ ∀ column ∈ columns, IsColumn column)) :
    ∃ detail, (select columns).Refuses (.invalidIdentifier detail) ∧
      ((columns = [] ∧ detail = "select list cannot be empty") ∨
        FirstFault columns (.invalidIdentifier detail)) := by
  by_cases h_nil : columns = []
  · subst h_nil
    exact ⟨_, Logged.refuses_refuse _, .inl ⟨rfl, rfl⟩⟩
  · obtain ⟨detail, h_texts, h_fault⟩ := columnTexts_of_not_isColumn fun h_all => h ⟨h_nil, h_all⟩
    refine ⟨detail, ?_, .inr h_fault⟩
    intro events
    rw [select, h_texts, Logged.outcome_bind, Logged.outcome_ofExcept_error]

/-- A SELECT list is given if and only if there are columns and each of them is one. It is
    then written with the columns as they are, and binds nothing. Otherwise it is refused as
    no identifier, for its first column that is none or for having none, and this is
    reported once. -/
theorem select_gives_or_refuses (columns : List String) :
    ((∃ f, (select columns).Gives f) ↔
      columns ≠ [] ∧ ∀ column ∈ columns, IsColumn column) ∧
    (∀ f, (select columns).Gives f → ∀ c : Collector,
      c.run f.render = ("SELECT " ++ ", ".intercalate columns, c)) ∧
    ((¬∃ f, (select columns).Gives f) →
      ∃ detail, (select columns).Refuses (.invalidIdentifier detail) ∧
        ((columns = [] ∧ detail = "select list cannot be empty") ∨
          FirstFault columns (.invalidIdentifier detail))) := by
  have h_gives : (∃ f, (select columns).Gives f) →
      columns ≠ [] ∧ ∀ column ∈ columns, IsColumn column := by
    rintro ⟨f, h_f⟩
    by_contra h_none
    obtain ⟨detail, h_refuses, -⟩ := refuses_select h_none
    exact h_refuses.not_gives f h_f
  refine ⟨⟨h_gives, fun h => ⟨_, gives_select h.1 h.2⟩⟩, ?_, ?_⟩
  · intro f h_f c
    obtain ⟨h_some, h_columns⟩ := h_gives ⟨f, h_f⟩
    have h_text := (gives_select h_some h_columns).eq_of_outcome (h_f #[])
    rw [← h_text, Fragment.render, Collector.run_pure]
  · intro h_none
    exact refuses_select fun h => h_none ⟨_, gives_select h.1 h.2⟩

/-- A name in quotes that ends like a table with a star; and a table that is no
    identifier. -/
theorem select_gives_or_refuses_quoted :
    (∃ f, (select ["u.\"a.*\"", "u.*", "*"]).Gives f ∧
      ∀ c : Collector, c.run f.render = ("SELECT u.\"a.*\", u.*, *", c)) ∧
    ∃ detail, (select ["a", "u..*"]).Refuses (.invalidIdentifier detail) := by
  have h_quoted : Identifier.parse "u.\"a.*\"" = .ok ⟨[.word "u", .quoted "a.*"]⟩ :=
    Identifier.parse_sql (i := ⟨[.word "u", .quoted "a.*"]⟩) (by decide)
  have h_word : Identifier.parse "u" = .ok ⟨[.word "u"]⟩ :=
    Identifier.parse_sql (i := ⟨[.word "u"]⟩) (by decide)
  have h_columns : ∀ column ∈ ["u.\"a.*\"", "u.*", "*"], IsColumn column := by
    intro column h_column
    simp only [List.mem_cons, List.not_mem_nil, or_false] at h_column
    rcases h_column with rfl | rfl | rfl
    · exact .identifier h_quoted
    · exact .table h_word
    · exact .star
  have h_table : tableOf? "u..*" = some "u." := tableOf_append "u."
  have h_bad : ¬IsColumn "u..*" := by
    intro h
    have h_text := columnText_of_isColumn h
    rw [columnText, if_neg (by decide), h_table] at h_text
    cases h_parse : Identifier.parse "u." with
    | error cause => simp [h_parse, Except.map] at h_text
    | ok i =>
        rw [Identifier.parse, Identifier.read, Identifier.readParts] at h_parse
        cases h_parse
  obtain ⟨h_iff, h_render, -⟩ := select_gives_or_refuses ["u.\"a.*\"", "u.*", "*"]
  obtain ⟨f, h_f⟩ := h_iff.mpr ⟨by decide, h_columns⟩
  obtain ⟨h_other, -, h_refused⟩ := select_gives_or_refuses ["a", "u..*"]
  obtain ⟨detail, h_refuses, -⟩ := h_refused fun h_some => h_bad ((h_other.mp h_some).2 _ (by simp))
  exact ⟨⟨f, h_f, h_render f h_f⟩, detail, h_refuses⟩

end Fragment

end SqlCompose
