/-
  SqlCompose.Proofs.Scan.Leaf

  The texts that a program puts into a leaf, and finding the markers of the leaf in
  its text. `Leaf.texts` lists these texts: a head, the keys of a map or of an object,
  the columns of a SELECT list, a text that is used as it is. If none of them holds the
  mark of a style, the outlines of the leaf scan in this style (`Leaf.scans_outlines`),
  because nothing else in them comes from the program.

  For JSON data this takes a look at how a head is read: what is written of it is a
  part of the text that was given, and an operator of the list.
-/
import SqlCompose.Proofs.Leaf
import SqlCompose.Proofs.Scan.Outline

namespace SqlCompose

/-! ## Texts of the program -/

/-- The texts in JSON data that can be written: the head of a pair, the keys of an
    object. -/
def Document.texts (d : Document) : List String :=
  match d.json with
  | .array (.string head :: _) => [head]
  | .object members => members.map Prod.fst
  | _ => []

namespace Leaf

/-- The texts that a program puts into a leaf. -/
def texts : Leaf → List String
  | .text sql | .raw sql => [sql]
  | .comparison head _ => [head]
  | .columns m | .row m | .assignments m => m.entries.toList.map Prod.fst
  | .document d => d.texts
  | .select names => names
  | .bound .. => []

/-- The text that is a fragment as it is. -/
def raws : Leaf → List String
  | .raw sql => [sql]
  | _ => []

end Leaf

/-! ## JSON data -/

theorem Text.mem_of_mem_trimBlanks {cs : List Char} {c : Char} (h : c ∈ Text.trimBlanks cs) :
    c ∈ cs := by
  rw [Text.trimBlanks, List.mem_reverse] at h
  have h_back := (List.dropWhile_sublist _).mem h
  rw [List.mem_reverse] at h_back
  exact (List.dropWhile_sublist _).mem h_back

/-- The column of a head is a part of it. -/
theorem Json.mem_of_headOf {head operator : String} {i : Identifier} {c : Char}
    (h : Json.headOf? head = some (i, operator)) (h_c : c ∈ i.sql.toList) : c ∈ head.toList := by
  simp only [Json.headOf?] at h
  cases h_cut : Text.cutAtBlank (Text.trimBlanks head.toList) with
  | none => simp [h_cut] at h
  | some parts =>
      obtain ⟨column, rest⟩ := parts
      cases h_parse : Identifier.parse (String.ofList column) with
      | error cause => simp [h_cut, h_parse] at h
      | ok j =>
          simp only [h_cut, h_parse, Option.some.injEq, Prod.mk.injEq] at h
          obtain ⟨⟨b, -, h_trimmed⟩, -⟩ := Text.cutAtBlank_eq_some h_cut
          have h_sql := Identifier.sql_of_parse h_parse
          rw [← h.1, h_sql, String.toList_ofList] at h_c
          apply Text.mem_of_mem_trimBlanks
          rw [h_trimmed]
          exact List.mem_append_left _ h_c

/-- The column of a comparison is a part of a text of the data. -/
theorem Document.exists_text {d : Document} {q : Comparison} (h : q ∈ d.json.comparisons) :
    ∃ s ∈ d.texts, ∀ c ∈ q.column.sql.toList, c ∈ s.toList := by
  unfold Json.comparisons at h
  split at h
  · rename_i head operand h_json
    cases h_head : Json.headOf? head with
    | none => simp [h_head] at h
    | some parts =>
        obtain ⟨i, operator⟩ := parts
        simp only [h_head, List.mem_singleton] at h
        subst h
        refine ⟨head, by simp [Document.texts, h_json], ?_⟩
        exact fun c h_c => Json.mem_of_headOf h_head h_c
  · rename_i members h_json
    obtain ⟨⟨key, j⟩, h_member, h_comparison⟩ := List.mem_filterMap.mp h
    rw [Json.memberComparison?] at h_comparison
    cases h_parse : Identifier.parse key with
    | error cause => simp [h_parse] at h_comparison
    | ok i =>
        simp only [h_parse, Option.some.injEq] at h_comparison
        refine ⟨key, ?_, ?_⟩
        · simp only [Document.texts, h_json]
          exact List.mem_map.mpr ⟨(key, j), h_member, rfl⟩
        · rw [← h_comparison, Identifier.sql_of_parse h_parse]
          exact fun c h_c => h_c
  · exact absurd h List.not_mem_nil

theorem mark_notMem_operator (style : MarkerStyle) {operator : String}
    (h : operator ∈ Condition.operators) : style.mark ∉ operator.toList := by
  have h_all : ∀ operator ∈ Condition.operators,
      '$' ∉ operator.toList ∧ '?' ∉ operator.toList := by decide
  exact style.mark_notMem (h_all operator h)

section Scanning

variable {style : MarkerStyle}

theorem mark_notMem_append {s t : String} (hs : style.mark ∉ s.toList)
    (ht : style.mark ∉ t.toList) : style.mark ∉ (s ++ t).toList := by
  rw [String.toList_append, List.mem_append, not_or]
  exact ⟨hs, ht⟩

theorem Document.mark_notMem_head {d : Document} {q : Comparison}
    (h_mark : ∀ s ∈ d.texts, style.mark ∉ s.toList) (h : q ∈ d.json.comparisons)
    (h_lawful : q.Lawful) : style.mark ∉ q.head.toList := by
  obtain ⟨s, h_s, h_part⟩ := Document.exists_text h
  have h_column : style.mark ∉ q.column.sql.toList := fun h_c => h_mark s h_s (h_part _ h_c)
  have h_space : style.mark ∉ " ".toList := style.mark_notMem (by decide)
  rw [Comparison.head]
  exact mark_notMem_append (mark_notMem_append h_column h_space)
    (mark_notMem_operator style h_lawful.operator)

/-! ## Comparisons and clauses -/

open Outline (Scans)

theorem Operand.scans_outline {head : String} (h : style.mark ∉ head.toList)
    (operand : Operand) : (operand.outline head).Scans style := by
  cases operand with
  | value v =>
      have h_space : style.mark ∉ " ".toList := style.mark_notMem (by decide)
      exact (Outline.scans_value v).text (mark_notMem_append h h_space)
  | list vs =>
      cases vs with
      | nil =>
          have h_null : style.mark ∉ " ( NULL )".toList := style.mark_notMem (by decide)
          exact Outline.scans_text (mark_notMem_append h h_null)
      | cons v vs =>
          have h_open : style.mark ∉ " ( ".toList := style.mark_notMem (by decide)
          have h_items := (Outline.scans_values (v :: vs)).close (Outline.delimits_close style)
          rw [Operand.outline_cons]
          exact h_items.text (mark_notMem_append h h_open)

theorem Operand.scans_outlineOption {head : String} (h : style.mark ∉ head.toList)
    (operand : Option Operand) : (Operand.outlineOption head operand).Scans style := by
  cases operand with
  | none => exact Outline.scans_nil
  | some operand => exact operand.scans_outline h

theorem ColumnMap.scans_entryOutline {entry : String × Option Value}
    (h : style.mark ∉ entry.1.toList) : (ColumnMap.entryOutline entry).Scans style := by
  have h_equals : style.mark ∉ " =".toList := style.mark_notMem (by decide)
  exact Operand.scans_outlineOption (mark_notMem_append h h_equals) _

theorem mark_notMem_intercalate {separator : String} (h : style.mark ∉ separator.toList)
    {texts : List String} (h_texts : ∀ s ∈ texts, style.mark ∉ s.toList) :
    style.mark ∉ (separator.intercalate texts).toList := by
  induction texts with
  | nil => simp
  | cons s texts ih =>
      have h_first := h_texts s List.mem_cons_self
      have h_rest := ih fun t h_t => h_texts t (List.mem_cons_of_mem s h_t)
      cases texts with
      | nil =>
          rw [String.intercalate_singleton]
          exact h_first
      | cons t texts =>
          rw [String.intercalate_cons_cons]
          exact mark_notMem_append (mark_notMem_append h_first h) h_rest

theorem scans_rowOutline {entries : List (String × Value)}
    (h : ∀ entry ∈ entries, style.mark ∉ entry.1.toList) : (rowOutline entries).Scans style := by
  have h_columns : style.mark ∉ (", ".intercalate (entries.map Prod.fst)).toList := by
    apply mark_notMem_intercalate (Outline.delimits_comma style).mark
    intro s h_s
    obtain ⟨entry, h_entry, rfl⟩ := List.mem_map.mp h_s
    exact h entry h_entry
  have h_open : style.mark ∉ "(".toList := style.mark_notMem (by decide)
  have h_values : style.mark ∉ ") VALUES (".toList := style.mark_notMem (by decide)
  have h_items := (Outline.scans_values (entries.map Prod.snd)).close
    (Outline.delimits_parenthesis style)
  rw [rowOutline, map_value_snd]
  exact h_items.text (mark_notMem_append (mark_notMem_append h_open h_columns) h_values)

theorem scans_assignmentsOutline {entries : List (String × Value)}
    (h : ∀ entry ∈ entries, style.mark ∉ entry.1.toList) :
    (assignmentsOutline entries).Scans style := by
  have h_set : style.mark ∉ "SET ".toList := style.mark_notMem (by decide)
  have h_equals : style.mark ∉ " = ".toList := style.mark_notMem (by decide)
  refine Scans.text (Outline.scans_joined (Outline.delimits_comma style) ?_) h_set
  intro o h_o
  obtain ⟨entry, h_entry, rfl⟩ := List.mem_map.mp h_o
  exact (Outline.scans_value entry.2).text (mark_notMem_append (h entry h_entry) h_equals)

theorem mark_notMem_keyword (which : RowBound) :
    style.mark ∉ (which.keyword ++ " ").toList := by
  cases which with
  | limit => exact style.mark_notMem (by decide)
  | offset => exact style.mark_notMem (by decide)

theorem scans_boundOutline (which : RowBound) (rows : Option Int64) :
    (boundOutline which rows).Scans style := by
  rw [boundOutline]
  cases rows.filter (· ≠ 0) with
  | none => exact Outline.scans_nil
  | some n => exact (Outline.scans_value (.int n)).text (mark_notMem_keyword which)

/-! ## Leaves -/

/-- A column that has a value is a column of the map. -/
theorem ColumnMap.exists_entry_of_present {m : ColumnMap} {entry : String × Value}
    (h : entry ∈ m.present) : entry.1 ∈ m.entries.toList.map Prod.fst := by
  obtain ⟨⟨column, value⟩, h_entry, h_present⟩ := List.mem_filterMap.mp h
  cases value with
  | none => simp at h_present
  | some v =>
      simp only [Option.map_some, Option.some.injEq] at h_present
      rw [← h_present]
      exact List.mem_map.mpr ⟨(column, some v), h_entry, rfl⟩

theorem Document.scans_outlines {d : Document} {condition : Condition}
    (h_read : Condition.read d.json = .ok condition)
    (h_mark : ∀ s ∈ d.texts, style.mark ∉ s.toList) : d.outlines.All (Scans style) := by
  refine Document.related_role rfl ?_ ?_
  · rw [List.forall₂_same]
    intro q h_q
    have h_lawful := Condition.lawful_of_read h_read h_q
    exact q.bindings.scans_outline (Document.mark_notMem_head h_mark h_q h_lawful)
  · intro xs ys h
    exact Outline.scans_outline .and (forall_mem_of_forall₂ h)

/-- The outlines of a leaf that is built scan if its texts hold no mark. -/
theorem Leaf.scans_outlines {leaf : Leaf} {events after : Array Event} {condition : Condition}
    (h_build : leaf.build.outcome events = (.ok condition, after))
    (h_mark : ∀ s ∈ leaf.texts, style.mark ∉ s.toList) : leaf.outlines.All (Scans style) := by
  have h_group : ∀ os : List Outline, (∀ o ∈ os, o.Scans style) →
      (Connective.and.outline os).Scans style := fun os h => Outline.scans_outline .and h
  have h_present : ∀ {m : ColumnMap}, (∀ s ∈ m.entries.toList.map Prod.fst, style.mark ∉ s.toList) →
      ∀ entry ∈ m.present, style.mark ∉ entry.1.toList :=
    fun h_keys entry h_entry => h_keys _ (ColumnMap.exists_entry_of_present h_entry)
  cases leaf with
  | text sql =>
      have h_text : Scans style [.text sql] :=
        Outline.scans_text (h_mark sql (by simp [texts]))
      refine Condition.all_role (fun f h_f => by cases h_f) h_text ?_ h_group
      intro part h_part
      rw [List.mem_singleton.mp h_part]
      exact h_text
  | raw sql => exact Role.all_single (Outline.scans_text (h_mark sql (by simp [texts])))
  | comparison head operand =>
      have h_comparison : (Operand.outlineOption head operand).Scans style :=
        Operand.scans_outlineOption (h_mark head (by simp [texts])) operand
      refine Condition.all_role (fun f h_f => by cases h_f) h_comparison ?_ h_group
      intro part h_part
      rw [List.mem_singleton.mp h_part]
      exact h_comparison
  | columns m =>
      have h_entries : ∀ o ∈ m.entries.toList.map ColumnMap.entryOutline, o.Scans style := by
        intro o h_o
        obtain ⟨entry, h_entry, rfl⟩ := List.mem_map.mp h_o
        exact ColumnMap.scans_entryOutline (h_mark _ (List.mem_map_of_mem h_entry))
      refine Condition.all_role (fun f h_f => by cases h_f) ?_ ?_ h_group
      · rw [Condition.outline]
        exact h_group _ h_entries
      · intro part h_part
        apply h_entries
        rw [← outlines_conditions]
        exact List.mem_map_of_mem h_part
  | document d => exact Document.scans_outlines (Condition.read_of_ofJson h_build) h_mark
  | row m => exact Role.all_single (scans_rowOutline (h_present h_mark))
  | assignments m => exact Role.all_single (scans_assignmentsOutline (h_present h_mark))
  | bound which rows => exact Role.all_single (scans_boundOutline which rows)
  | select names =>
      rw [outlines]
      cases h_texts : Fragment.columnTexts names with
      | error cause => exact Role.all_single Outline.scans_nil
      | ok columns =>
          have h_select : style.mark ∉ "SELECT ".toList := style.mark_notMem (by decide)
          have h_columns : style.mark ∉ (", ".intercalate columns).toList := by
            rw [Fragment.columnTexts_eq_ok h_texts]
            exact mark_notMem_intercalate (Outline.delimits_comma style).mark h_mark
          exact Role.all_single (Outline.scans_text (mark_notMem_append h_select h_columns))

/-! ## Fragments -/

open Outline (EndsNumbers)

theorem Connective.endsNumbers_outline (connective : Connective) (os : List Outline) :
    (connective.outline os).EndsNumbers style := by
  rw [Connective.outline]
  by_cases h_none : (os.filter (!Outline.isBlank ·)).isEmpty = true
  · rw [if_pos h_none]
    exact Outline.endsNumbers_nil
  · rw [if_neg h_none]
    exact Outline.endsNumbers_text _ rfl (by decide)

theorem Outline.endsNumbers_filtered (o : Outline) : o.filtered.EndsNumbers style := by
  rw [Outline.filtered]
  cases o.isBlank with
  | true => exact Outline.endsNumbers_nil
  | false => exact Outline.endsNumbers_text _ rfl (by decide)

/-- A leaf that is a fragment starts with a keyword or a parenthesis, unless it is a text
    that is used as it is. -/
theorem Leaf.endsNumbers_outlines {leaf : Leaf} {events after : Array Event} {f : Fragment}
    (h_build : leaf.build.outcome events = (.ok (.fragment f), after))
    (h_raw : ∀ s ∈ leaf.raws, EndsNumber s.toList) : leaf.outlines.whole.EndsNumbers style := by
  cases leaf with
  | text _ | comparison _ _ | columns _ =>
      have h_condition := congrArg Prod.fst h_build
      cases h_condition
  | document d =>
      have h_read := Condition.read_of_ofJson h_build
      exact absurd rfl (Condition.ne_fragment_of_read h_read f)
  | row m => exact Outline.endsNumbers_text (c := '(') _ (by simp) (by decide)
  | assignments m => exact Outline.endsNumbers_text _ rfl (by decide)
  | select names =>
      rw [outlines]
      cases Fragment.columnTexts names with
      | error cause => exact Outline.endsNumbers_nil
      | ok columns => exact Outline.endsNumbers_text (c := 'S') _ (by simp) (by decide)
  | bound which rows =>
      show (boundOutline which rows).EndsNumbers style
      rw [boundOutline]
      cases rows.filter (· ≠ 0) with
      | none => exact Outline.endsNumbers_nil
      | some n =>
          cases which with
          | limit => exact Outline.endsNumbers_text _ rfl (by decide)
          | offset => exact Outline.endsNumbers_text _ rfl (by decide)
  | raw sql =>
      intro bound
      show EndsNumber (Outline.sql style bound [.text sql]).toList
      rw [Outline.sql_text]
      exact h_raw sql (by simp [raws])

end Scanning

end SqlCompose
