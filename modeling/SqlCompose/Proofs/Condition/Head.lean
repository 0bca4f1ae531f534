/-
  SqlCompose.Proofs.Condition.Head

  Heads of comparisons, `column operator`, as they can be written. `HeadText name
  operator head` says that `head` is the column `name` and the operator, in any
  spelling, with blanks between them and perhaps around them.

  Reading such a head gives the column and the operator in its one spelling if the
  column holds no blank (`HeadText.readHead_of_blankFree`). A column that holds one stands
  in quotes there, and it is cut at its first blank: a quote is then left in the
  operator, and no operator has a quote (`HeadText.readHead_of_blank`).
-/
import SqlCompose.Proofs.Document
import SqlCompose.Proofs.Identifier.Grammar
import SqlCompose.Proofs.Text.Spelling

namespace SqlCompose

/-! ## Joined texts -/

namespace Text

theorem map_intercalate {α β : Type} (f : α → β) (separator : List α) (parts : List (List α)) :
    (separator.intercalate parts).map f
      = (separator.map f).intercalate (parts.map (List.map f)) := by
  induction parts with
  | nil => rfl
  | cons part parts ih =>
      cases parts with
      | nil => simp [List.intercalate]
      | cons next parts =>
          rw [List.intercalate_cons_cons, List.map_append, List.map_append, ih, List.map_cons,
            List.map_cons, List.map_cons, List.intercalate_cons_cons]

theorem mem_intercalate_of_mem {separator part : List Char} {parts : List (List Char)} {c : Char}
    (h_part : part ∈ parts) (h : c ∈ part) : c ∈ separator.intercalate parts := by
  induction parts with
  | nil => exact absurd h_part List.not_mem_nil
  | cons first parts ih =>
      cases parts with
      | nil =>
          rw [List.intercalate_singleton, ← List.mem_singleton.mp h_part]
          exact h
      | cons next parts =>
          rw [List.intercalate_cons_cons]
          rcases List.mem_cons.mp h_part with rfl | h_part
          · exact List.mem_append_left _ (List.mem_append_left _ h)
          · exact List.mem_append_right _ (ih h_part)

end Text

/-! ## Blanks in identifiers -/

namespace Identifier

/-- Words hold no blank. -/
theorem isBlank_of_isWordRest {c : Char} (h : isWordRest c = true) : Text.isBlank c = false := by
  have h_visible : 33 ≤ c.toNat ∧ c.toNat ≤ 126 := by
    rw [isWordRest_iff] at h
    simp only [Letter, Char.le_def, UInt32.le_iff_toNat_le] at h
    rcases h with (⟨h_low, h_high⟩ | ⟨h_low, h_high⟩) | ⟨h_low, h_high⟩ | rfl | rfl
    · exact ⟨Nat.le_trans (by decide) h_low, Nat.le_trans h_high (by decide)⟩
    · exact ⟨Nat.le_trans (by decide) h_low, Nat.le_trans h_high (by decide)⟩
    · exact ⟨Nat.le_trans (by decide) h_low, Nat.le_trans h_high (by decide)⟩
    · decide
    · decide
  exact Text.isBlank_of_visible h_visible.1 h_visible.2

theorem isBlank_of_mem_word {cs : List Char} (h : WordText cs) {c : Char} (h_c : c ∈ cs) :
    Text.isBlank c = false :=
  isBlank_of_isWordRest (isWordRest_of_mem (wordText_iff.mp h) h_c)

/-- A part starts with a character of a word or with a quote. -/
theorem PartText.startsWord {cs : List Char} (h : PartText cs) : Text.startsWord cs = true := by
  cases h with
  | word h_word =>
      cases cs with
      | nil => exact absurd (wordText_iff.mp h_word) (by simp [isWord])
      | cons c cs =>
          rw [Text.startsWord_cons, isBlank_of_mem_word h_word List.mem_cons_self]
          rfl
  | quoted h_name h_some => rfl

theorem IdentifierText.startsWord {cs : List Char} (h : IdentifierText cs) :
    Text.startsWord cs = true := by
  cases h with
  | part h => exact h.startsWord
  | dotted h h_rest => exact Text.startsWord_append h.startsWord _

/-- Behind a blank in a part there is the quote that closes it. -/
theorem PartText.quote_mem {before after : List Char} {b : Char}
    (h : PartText (before ++ b :: after)) (h_blank : Text.isBlank b = true) : '"' ∈ after := by
  have h_b : b ∈ before ++ b :: after := List.mem_append_right before List.mem_cons_self
  generalize h_text : before ++ b :: after = cs at h h_b
  cases h with
  | word h_word =>
      rw [isBlank_of_mem_word h_word h_b] at h_blank
      cases h_blank
  | @quoted name h_name h_some =>
      rw [← List.cons_append] at h_text
      rcases List.eq_nil_or_concat after with rfl | ⟨init, last, rfl⟩
      · -- The blank would be the closing quote.
        obtain ⟨-, h_last⟩ := List.append_inj' h_text rfl
        rw [List.cons.injEq] at h_last
        rw [h_last.1] at h_blank
        exact absurd h_blank (by decide)
      · rw [List.concat_eq_append, ← List.cons_append, ← List.append_assoc] at h_text
        obtain ⟨-, h_last⟩ := List.append_inj' h_text rfl
        rw [List.cons.injEq] at h_last
        rw [List.concat_eq_append, h_last.1]
        exact List.mem_append_right init List.mem_cons_self

theorem IdentifierText.quote_mem {before after : List Char} {b : Char}
    (h : IdentifierText (before ++ b :: after)) (h_blank : Text.isBlank b = true) :
    '"' ∈ after := by
  generalize h_text : before ++ b :: after = cs at h
  induction h generalizing before with
  | part h =>
      subst h_text
      exact h.quote_mem h_blank
  | @dotted part rest h h_rest ih =>
      have h_noDot : b ≠ '.' := by
        rintro rfl
        exact absurd h_blank (by decide)
      rcases List.append_eq_append_iff.mp h_text with ⟨inner, h_part, h_after⟩ | ⟨inner, -, h_inner⟩
      -- The blank stands in the first part, ...
      · cases inner with
        | nil =>
            rw [List.nil_append, List.cons.injEq] at h_after
            exact absurd h_after.1 h_noDot
        | cons c inner =>
            rw [List.cons_append, List.cons.injEq] at h_after
            obtain ⟨rfl, rfl⟩ := h_after
            subst h_part
            exact List.mem_append_left _ (h.quote_mem h_blank)
      -- ... or behind the first dot.
      · cases inner with
        | nil =>
            rw [List.nil_append, List.cons.injEq] at h_inner
            exact absurd h_inner.1.symm h_noDot
        | cons c inner =>
            rw [List.cons_append, List.cons.injEq] at h_inner
            exact ih h_inner.2.symm

end Identifier

/-! ## Heads -/

namespace Condition

/-- A column and an operator: the column as it is, the operator in any spelling, blanks
    between them and perhaps in front and behind. -/
inductive HeadText (name operator head : String) : Prop where
  | mk {lead gap written trail : List Char} (h_lead : Text.Blanks lead) (h_some : gap ≠ [])
      (h_gap : Text.Blanks gap) (h_written : Text.Spells operator.toList written)
      (h_trail : Text.Blanks trail)
      (h_head : head.toList = lead ++ (name.toList ++ gap ++ written) ++ trail)

theorem toList_canonicalOperator (cs : List Char) :
    (canonicalOperator cs).toList
      = [' '].intercalate ((Text.words cs).map (List.map Char.toUpper)) := by
  have h_words : ((Text.words cs).map String.ofList).map String.toList = Text.words cs := by
    rw [List.map_map]
    exact (List.map_congr_left fun w _ => String.toList_ofList).trans (List.map_id _)
  rw [canonicalOperator, String.toList_ofList, String.toList_intercalate, h_words,
    Text.map_intercalate]
  rfl

/-- An operator is its words with single spaces between them. -/
theorem intercalate_words_operator : ∀ operator ∈ operators,
    [' '].intercalate (Text.words operator.toList) = operator.toList := by decide

/-- Any spelling of an operator is read as the operator. -/
theorem canonicalOperator_of_spells {operator : String} (h : operator ∈ operators)
    {gap written : List Char} (h_gap : Text.Blanks gap)
    (h_written : Text.Spells operator.toList written) :
    canonicalOperator (gap ++ written) = operator := by
  apply String.toList_inj.mp
  rw [toList_canonicalOperator, Text.words_blanks_append h_gap, h_written.words_eq,
    intercalate_words_operator operator h]

/-- A quote is left of an operator that has one, and so it is none of the known ones. -/
theorem canonicalOperator_notMem {cs : List Char} (h : '"' ∈ cs) :
    canonicalOperator cs ∉ operators := by
  intro h_known
  have h_noQuote : ∀ operator ∈ operators, '"' ∉ operator.toList := by decide
  apply h_noQuote _ h_known
  have h_words : '"' ∈ (Text.words cs).flatten := by
    rw [Text.flatten_words, List.mem_filter]
    exact ⟨h, by decide⟩
  obtain ⟨word, h_word, h_quote⟩ := List.mem_flatten.mp h_words
  rw [toList_canonicalOperator]
  exact Text.mem_intercalate_of_mem (List.mem_map_of_mem h_word) (List.mem_map_of_mem h_quote)

/-- A head is cut at its first blank, and the operator is looked at first. -/
theorem readHead_of_trimmed {head : String} {before after : List Char} {b : Char}
    (h_trimmed : Text.trimBlanks head.toList = before ++ b :: after)
    (h_free : Text.BlankFree before) (h_blank : Text.isBlank b = true) :
    readHead head
      = if operators.contains (canonicalOperator after) then
          (readColumn (String.ofList before)).map (· ++ " " ++ canonicalOperator after)
        else .error (.unknownOperator (canonicalOperator after)) := by
  simp only [readHead, h_trimmed, Text.cutAtBlank_append h_free h_blank]

namespace HeadText

variable {name operator head : String}

/-- What is left of a head between blanks. -/
theorem exists_trimmed (h : HeadText name operator head) (h_operator : operator ∈ operators)
    (h_name : Identifier.IdentifierText name.toList) :
    ∃ gap b written, Text.Blanks gap ∧ Text.isBlank b = true ∧
      Text.Spells operator.toList written ∧
      Text.trimBlanks head.toList = name.toList ++ b :: (gap ++ written) := by
  obtain ⟨h_lead, h_some, h_gap, h_written, h_trail, h_head⟩ := h
  rename_i lead gap written trail
  have h_ends : ∀ operator ∈ operators, Text.startsWord operator.toList.reverse = true := by decide
  have h_start : Text.startsWord (name.toList ++ gap ++ written) = true := by
    rw [List.append_assoc]
    exact Text.startsWord_append h_name.startsWord _
  have h_end : Text.startsWord (name.toList ++ gap ++ written).reverse = true := by
    rw [List.reverse_append]
    exact Text.startsWord_append (h_written.endsWord (h_ends operator h_operator)) _
  obtain ⟨b, gap, rfl⟩ := List.exists_cons_of_ne_nil h_some
  refine ⟨gap, b, written, fun c h_c => h_gap c (List.mem_cons_of_mem b h_c),
    h_gap b List.mem_cons_self, h_written, ?_⟩
  rw [h_head, Text.trimBlanks_append h_lead h_trail h_start h_end, List.append_assoc,
    List.cons_append]

/-- A column without blanks is kept, with the operator in its one spelling. -/
theorem readHead_of_blankFree (h : HeadText name operator head) (h_operator : operator ∈ operators)
    {i : Identifier} (h_name : Identifier.parse name = .ok i)
    (h_free : Text.BlankFree name.toList) :
    readHead head = .ok (i.sql ++ " " ++ operator) := by
  obtain ⟨-, h_text⟩ := Identifier.exists_parse_iff.mp ⟨i, h_name⟩
  obtain ⟨gap, b, written, h_gap, h_b, h_written, h_trimmed⟩ := h.exists_trimmed h_operator h_text
  have h_canonical := canonicalOperator_of_spells h_operator h_gap h_written
  have h_known : operators.contains operator = true := List.contains_iff_mem.mpr h_operator
  rw [readHead_of_trimmed h_trimmed h_free h_b, h_canonical, if_pos h_known,
    String.ofList_toList, readColumn, h_name]
  rfl

/-- A column with a blank is cut, and what is left of it is no part of an operator. -/
theorem readHead_of_blank (h : HeadText name operator head) (h_operator : operator ∈ operators)
    {i : Identifier} (h_name : Identifier.parse name = .ok i)
    (h_blank : ¬Text.BlankFree name.toList) :
    ∃ unknown, unknown ∉ operators ∧ readHead head = .error (.unknownOperator unknown) := by
  obtain ⟨-, h_text⟩ := Identifier.exists_parse_iff.mp ⟨i, h_name⟩
  obtain ⟨gap, d, written, -, -, -, h_trimmed⟩ := h.exists_trimmed h_operator h_text
  obtain ⟨before, b, after, h_cut, h_b, h_free⟩ := Text.exists_first_blank h_blank
  rw [h_cut] at h_text
  rw [h_cut, List.append_assoc, List.cons_append] at h_trimmed
  have h_quote : '"' ∈ after ++ d :: (gap ++ written) :=
    List.mem_append_left _ (h_text.quote_mem h_b)
  have h_unknown := canonicalOperator_notMem h_quote
  refine ⟨canonicalOperator (after ++ d :: (gap ++ written)), h_unknown, ?_⟩
  rw [readHead_of_trimmed h_trimmed h_free h_b,
    if_neg fun h_known => h_unknown (List.contains_iff_mem.mp h_known)]

end HeadText

end Condition

end SqlCompose
