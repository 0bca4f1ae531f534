/-
  SqlCompose.Proofs.Condition.Canonical

  The canonical form of heads. `HeadParts column written head` takes a head apart into
  the column and the operator as they are written; there is at most one way to do so
  (`HeadParts.unique`), and there is one for every head that is read
  (`exists_headParts_of_readHead`).

    * A head is read as its column, one space and a known operator
      (`HeadParts.readHead_eq_ok_iff`), and what is read is itself such a head, which is
      read as it is (`readHead_of_readHead`).
    * Two heads are read alike if and only if their columns are the same and their
      operators are spelled alike (`HeadParts.text_eq_iff`).

  `ofJson_pair_canonical` says this of pairs.
-/
import SqlCompose.Proofs.Condition.OfJson

namespace SqlCompose.Condition

/-! ## The parts of a head -/

/-- A head is a column and an operator, with blanks between them and perhaps around
    them. The column holds no blank, and the operator starts and ends with a word. -/
inductive HeadParts (column written head : String) : Prop where
  | mk {lead gap trail : List Char} (h_lead : Text.Blanks lead) (h_some : gap ≠ [])
      (h_gap : Text.Blanks gap) (h_trail : Text.Blanks trail)
      (h_column : Text.startsWord column.toList = true) (h_free : Text.BlankFree column.toList)
      (h_start : Text.startsWord written.toList = true)
      (h_end : Text.startsWord written.toList.reverse = true)
      (h_head : head.toList = lead ++ (column.toList ++ gap ++ written.toList) ++ trail)

theorem canonicalOperator_blanks_append {gap : List Char} (h : Text.Blanks gap) (cs : List Char) :
    canonicalOperator (gap ++ cs) = canonicalOperator cs := by
  rw [canonicalOperator, Text.words_blanks_append h, canonicalOperator]

namespace HeadParts

variable {column written head : String}

theorem startsWord (h : HeadParts column written head) :
    Text.startsWord written.toList = true := by
  cases h
  assumption

theorem endsWord (h : HeadParts column written head) :
    Text.startsWord written.toList.reverse = true := by
  cases h
  assumption

theorem blankFree (h : HeadParts column written head) : Text.BlankFree column.toList := by
  cases h
  assumption

/-- What is left of a head between blanks. -/
theorem exists_trimmed (h : HeadParts column written head) :
    ∃ b gap, Text.isBlank b = true ∧ Text.Blanks gap ∧
      Text.trimBlanks head.toList = column.toList ++ b :: (gap ++ written.toList) := by
  obtain ⟨h_lead, h_some, h_gap, h_trail, h_column, h_free, h_start, h_end, h_head⟩ := h
  rename_i lead gap trail
  have h_first : Text.startsWord (column.toList ++ gap ++ written.toList) = true := by
    rw [List.append_assoc]
    exact Text.startsWord_append h_column _
  have h_last : Text.startsWord (column.toList ++ gap ++ written.toList).reverse = true := by
    rw [List.reverse_append]
    exact Text.startsWord_append h_end _
  obtain ⟨b, gap, rfl⟩ := List.exists_cons_of_ne_nil h_some
  obtain ⟨h_b, h_gap⟩ := List.forall_mem_cons.mp h_gap
  refine ⟨b, gap, h_b, h_gap, ?_⟩
  rw [h_head, Text.trimBlanks_append h_lead h_trail h_first h_last, List.append_assoc,
    List.cons_append]

/-- A head has one column and one operator. -/
theorem unique (h : HeadParts column written head) {column' written' : String}
    (h' : HeadParts column' written' head) : column = column' ∧ written = written' := by
  obtain ⟨b, gap, h_b, h_gap, h_trimmed⟩ := h.exists_trimmed
  obtain ⟨b', gap', h_b', h_gap', h_trimmed'⟩ := h'.exists_trimmed
  -- Both are cut at the first blank, ...
  have h_cut := Text.cutAtBlank_append h.blankFree h_b (gap ++ written.toList)
  rw [← h_trimmed, h_trimmed', Text.cutAtBlank_append h'.blankFree h_b', Option.some.injEq,
    Prod.mk.injEq] at h_cut
  obtain ⟨h_column, h_rest⟩ := h_cut
  -- ... and the operator is what follows the blanks behind it.
  have h_written := congrArg (List.dropWhile Text.isBlank) h_rest
  rw [Text.dropWhile_blanks_append h_gap' h'.startsWord,
    Text.dropWhile_blanks_append h_gap h.startsWord] at h_written
  exact ⟨String.toList_inj.mp h_column.symm, String.toList_inj.mp h_written.symm⟩

/-- A head is read if its column is an identifier and its operator, in its canonical
    spelling, a known one. -/
theorem readHead_eq_ok_iff (h : HeadParts column written head) {text : String} :
    readHead head = .ok text ↔
      (∃ i, Identifier.parse column = .ok i) ∧ canonicalOperator written.toList ∈ operators ∧
        text = column ++ " " ++ canonicalOperator written.toList := by
  obtain ⟨b, gap, h_b, h_gap, h_trimmed⟩ := h.exists_trimmed
  rw [readHead_of_trimmed h_trimmed h.blankFree h_b, canonicalOperator_blanks_append h_gap,
    String.ofList_toList]
  by_cases h_known : canonicalOperator written.toList ∈ operators
  · rw [if_pos (List.contains_iff_mem.mpr h_known)]
    cases h_parse : Identifier.parse column with
    | error cause => simp [readColumn, h_parse, Except.map]
    | ok i =>
        rw [readColumn_of_parse h_parse]
        simp [Except.map, h_known, eq_comm]
  · rw [if_neg fun h_contains => h_known (List.contains_iff_mem.mp h_contains)]
    simp [h_known]

end HeadParts

/-- The column of a head that is read stands in front of its first blank. -/
theorem exists_cut_of_readHead {head text : String} (h : readHead head = .ok text) :
    ∃ column b after, Text.isBlank b = true ∧ Text.BlankFree column.toList ∧
      (∃ i, Identifier.parse column = .ok i) ∧
      Text.trimBlanks head.toList = column.toList ++ b :: after := by
  obtain ⟨i, operator, h_headOf, -⟩ := readHead_eq_ok h
  rw [Json.headOf?] at h_headOf
  cases h_cut : Text.cutAtBlank (Text.trimBlanks head.toList) with
  | none => simp [h_cut] at h_headOf
  | some parts =>
      obtain ⟨before, after⟩ := parts
      obtain ⟨⟨b, h_b, h_trimmed⟩, h_free⟩ := Text.cutAtBlank_eq_some h_cut
      cases h_parse : Identifier.parse (String.ofList before) with
      | error cause => simp [h_cut, h_parse] at h_headOf
      | ok j =>
          refine ⟨String.ofList before, b, after, h_b, ?_, ⟨j, h_parse⟩, ?_⟩
          · rwa [String.toList_ofList]
          · rwa [String.toList_ofList]

/-- A head that is read has a column and an operator. -/
theorem exists_headParts_of_readHead {head text : String} (h : readHead head = .ok text) :
    ∃ column written, HeadParts column written head := by
  obtain ⟨column, b, after, h_b, h_free, h_parse, h_trimmed⟩ := exists_cut_of_readHead h
  obtain ⟨lead, trail, h_lead, h_trail, h_head⟩ := Text.exists_eq_trimBlanks head.toList
  have h_some : Text.trimBlanks head.toList ≠ [] := by
    rw [h_trimmed]
    exact List.append_ne_nil_of_right_ne_nil _ (List.cons_ne_nil b after)
  have h_end := Text.endsWord_trimBlanks h_some
  rw [h_trimmed] at h_end
  obtain ⟨gap, word, rfl, h_gap, h_start, h_last⟩ := Text.exists_word_of_blank h_b h_end
  rw [h_trimmed, ← List.cons_append, ← List.append_assoc column.toList] at h_head
  have h_gaps : Text.Blanks (b :: gap) := List.forall_mem_cons.mpr ⟨h_b, h_gap⟩
  have h_column := (Identifier.exists_parse_iff.mp h_parse).2.startsWord
  rw [← String.toList_ofList (l := word)] at h_start h_last h_head
  exact ⟨column, String.ofList word, .mk h_lead (List.cons_ne_nil b gap) h_gaps h_trail h_column
    h_free h_start h_last h_head⟩

/-! ## Canonical heads -/

/-- An operator starts and ends with a word, and is its own canonical spelling. -/
theorem operator_canonical : ∀ operator ∈ operators,
    Text.startsWord operator.toList = true ∧ Text.startsWord operator.toList.reverse = true ∧
      canonicalOperator operator.toList = operator := by
  have h_words : ∀ operator ∈ operators, Text.startsWord operator.toList = true ∧
      Text.startsWord operator.toList.reverse = true ∧
      Text.joinedWords operator.toList = operator.toList := by decide
  intro operator h_operator
  obtain ⟨h_start, h_end, h_joined⟩ := h_words operator h_operator
  refine ⟨h_start, h_end, String.toList_inj.mp ?_⟩
  rw [toList_canonicalOperator]
  exact h_joined

namespace HeadParts

variable {column written head : String}

theorem canonical (h : HeadParts column written head) {operator : String}
    (h_operator : operator ∈ operators) :
    HeadParts column operator (column ++ " " ++ operator) := by
  obtain ⟨h_start, h_end, -⟩ := operator_canonical operator h_operator
  obtain ⟨-, -, -, -, h_column, h_free, -, -, -⟩ := h
  have h_around : Text.Blanks [] := by decide
  have h_gap : Text.Blanks [' '] := by decide
  refine .mk h_around (List.cons_ne_nil ' ' []) h_gap h_around h_column h_free h_start h_end ?_
  rw [String.toList_append, String.toList_append, List.nil_append, List.append_nil]
  rfl

end HeadParts

/-- What a head is read as is read as it is. -/
theorem readHead_of_readHead {head text : String} (h : readHead head = .ok text) :
    readHead text = .ok text := by
  obtain ⟨column, written, h_parts⟩ := exists_headParts_of_readHead h
  obtain ⟨h_parse, h_operator, rfl⟩ := h_parts.readHead_eq_ok_iff.mp h
  obtain ⟨-, -, h_canonical⟩ := operator_canonical _ h_operator
  refine (h_parts.canonical h_operator).readHead_eq_ok_iff.mpr ⟨h_parse, ?_, ?_⟩
  · rwa [h_canonical]
  · rw [h_canonical]

/-- Operators have one canonical spelling if and only if they are spelled alike. -/
theorem HeadParts.canonicalOperator_eq_iff {column written head column' written' head' : String}
    (h : HeadParts column written head) (h' : HeadParts column' written' head') :
    canonicalOperator written.toList = canonicalOperator written'.toList ↔
      Text.SpelledAlike written.toList written'.toList := by
  rw [← String.toList_inj, toList_canonicalOperator, toList_canonicalOperator]
  exact Text.joinedWords_eq_iff ⟨h.startsWord, h.endsWord⟩ ⟨h'.startsWord, h'.endsWord⟩

/-- Two heads are read alike if they have one column, and operators that are spelled
    alike. -/
theorem HeadParts.text_eq_iff {column written head column' written' head' text text' : String}
    (h : HeadParts column written head) (h' : HeadParts column' written' head')
    (h_text : readHead head = .ok text) (h_text' : readHead head' = .ok text') :
    text = text' ↔ column = column' ∧ Text.SpelledAlike written.toList written'.toList := by
  obtain ⟨-, h_operator, h_eq⟩ := h.readHead_eq_ok_iff.mp h_text
  obtain ⟨-, h_operator', h_eq'⟩ := h'.readHead_eq_ok_iff.mp h_text'
  rw [← h.canonicalOperator_eq_iff h']
  constructor
  · rintro rfl
    -- One text has one column and one operator.
    have h_parts := h.canonical h_operator
    have h_parts' := h'.canonical h_operator'
    rw [← h_eq] at h_parts
    rw [← h_eq'] at h_parts'
    exact h_parts.unique h_parts'
  · rintro ⟨rfl, h_same⟩
    rw [h_eq, h_eq', h_same]

/-! ## Pairs -/

/-- A pair that is a condition has a canonical head: the column as it is written, one
    space, and the known operator that is spelled as it is written. The pair with this head
    is the same condition. Two pairs have one canonical head if and only if their columns are
    the same and their operators are spelled alike. -/
theorem ofJson_pair_canonical {head text : String} {operand : Json} {bound : Option Operand}
    (h : (ofJson (.array [.string head, operand])).Gives (.comparison text bound)) :
    (ofJson (.array [.string text, operand])).Gives (.comparison text bound) ∧
    (∃ column written operator, HeadParts column written head ∧ operator ∈ operators ∧
      Text.SpelledAlike written.toList operator.toList ∧ text = column ++ " " ++ operator) ∧
    ∀ (head' text' : String) (operand' : Json) (bound' : Option Operand),
      (ofJson (.array [.string head', operand'])).Gives (.comparison text' bound') →
      ∀ column written column' written' : String,
        HeadParts column written head → HeadParts column' written' head' →
          (text = text' ↔
            column = column' ∧ Text.SpelledAlike written.toList written'.toList) := by
  obtain ⟨_, read, h_head, h_operand, h_eq⟩ := read_pair_eq_ok_iff.mp (gives_iff_read.mp h)
  obtain ⟨rfl, rfl⟩ := Condition.comparison.inj h_eq
  refine ⟨?_, ?_, ?_⟩
  · exact gives_iff_read.mpr
      (read_pair_eq_ok_iff.mpr ⟨text, read, readHead_of_readHead h_head, h_operand, rfl⟩)
  · obtain ⟨column, written, h_parts⟩ := exists_headParts_of_readHead h_head
    obtain ⟨-, h_operator, h_text⟩ := h_parts.readHead_eq_ok_iff.mp h_head
    obtain ⟨-, -, h_canonical⟩ := operator_canonical _ h_operator
    have h_alike := (h_parts.canonicalOperator_eq_iff (h_parts.canonical h_operator)).mp
      h_canonical.symm
    exact ⟨column, written, _, h_parts, h_operator, h_alike, h_text⟩
  · intro head' text' operand' bound' h' column written column' written' h_parts h_parts'
    obtain ⟨_, read', h_head', -, h_eq'⟩ := read_pair_eq_ok_iff.mp (gives_iff_read.mp h')
    obtain ⟨rfl, -⟩ := Condition.comparison.inj h_eq'
    exact h_parts.text_eq_iff h_parts' h_head h_head'

/-- A head with blanks around it and between its words, in mixed case, and another spelling
    of it with a no-break space. -/
theorem ofJson_pair_canonical_spelled :
    let head := "\tu.id  nOt \tIN "
    let other := "u.id NOT\u00a0in"
    let operand : Json := .array [.string "a", .null]
    let condition : Condition := .comparison "u.id NOT IN" (some (.list [.text "a", .null]))
    (ofJson (.array [.string head, operand])).Gives condition ∧
    (ofJson (.array [.string other, .null])).Gives
      (.comparison "u.id NOT IN" (some (.value .null))) ∧
    HeadParts "u.id" "nOt \tIN" head ∧ HeadParts "u.id" "NOT\u00a0in" other ∧
    (ofJson (.array [.string "u.id NOT IN", operand])).Gives condition ∧
    Text.SpelledAlike "nOt \tIN".toList "NOT\u00a0in".toList := by
  intro head other operand condition
  have h_name : Identifier.parse "u.id" = .ok ⟨[.word "u", .word "id"]⟩ :=
    Identifier.parse_sql (i := ⟨[.word "u", .word "id"]⟩) (by decide)
  have h_around : Text.Blanks [] := by decide
  have h_lead : Text.Blanks ['\t'] := by decide
  have h_gap : Text.Blanks [' '] := by decide
  have h_gaps : Text.Blanks [' ', ' '] := by decide
  have h_head : HeadParts "u.id" "nOt \tIN" head :=
    .mk h_lead (List.cons_ne_nil ' ' [' ']) h_gaps h_gap (by decide) (by decide) (by decide)
      (by decide) (by decide)
  have h_other : HeadParts "u.id" "NOT\u00a0in" other :=
    .mk h_around (List.cons_ne_nil ' ' []) h_gap h_around (by decide) (by decide) (by decide)
      (by decide) (by decide)
  have h_operator {cs : List Char} (h : Text.joinedWords cs = "NOT IN".toList) :
      canonicalOperator cs = "NOT IN" :=
    String.toList_inj.mp ((toList_canonicalOperator cs).trans h)
  have h_read : readHead head = .ok "u.id NOT IN" := by
    rw [h_head.readHead_eq_ok_iff, h_operator (by decide)]
    exact ⟨⟨_, h_name⟩, by decide, by decide⟩
  have h_readOther : readHead other = .ok "u.id NOT IN" := by
    rw [h_other.readHead_eq_ok_iff, h_operator (by decide)]
    exact ⟨⟨_, h_name⟩, by decide, by decide⟩
  have h_gives : (ofJson (.array [.string head, operand])).Gives condition :=
    gives_of_read (read_pair_eq_ok_iff.mpr ⟨_, _, h_read, rfl, rfl⟩)
  have h_givesOther : (ofJson (.array [.string other, .null])).Gives
      (.comparison "u.id NOT IN" (some (.value .null))) :=
    gives_of_read (read_pair_eq_ok_iff.mpr ⟨_, _, h_readOther, rfl, rfl⟩)
  obtain ⟨h_again, -, h_iff⟩ := ofJson_pair_canonical h_gives
  have h_alike := (h_iff _ _ _ _ h_givesOther _ _ _ _ h_head h_other).mp rfl
  exact ⟨h_gives, h_givesOther, h_head, h_other, h_again, h_alike.2⟩

end SqlCompose.Condition
