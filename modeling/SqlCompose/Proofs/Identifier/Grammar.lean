/-
  SqlCompose.Proofs.Identifier.Grammar

  The grammar of identifiers, and that reading and writing follow it:

      identifier ::= part | part "." identifier
      part       ::= word | '"' name '"'
      word       ::= [A-Za-z_] [A-Za-z0-9_$]*
      name       ::= one or more of: any character but '"', or '""'

  `IdentifierText` is the grammar as a predicate on texts. It knows nothing of parts
  or of the reader: ranges of characters stand in it, and the ways to put texts side
  by side. The texts of the grammar are those that well-formed parts are written as
  (`identifierText_iff`), and the reader gives back exactly such parts
  (`readParts_eq_ok_iff`). Reading without faults is therefore the grammar without NUL,
  and reading and writing are inverse to each other (`parse_sql_inverse`).

  That writing comes before reading rests on `readPart_append`: a part ends at the
  end of the text or at a dot, and neither belongs to a part.
-/
import Mathlib.Tactic.Tauto
import SqlCompose.Proofs.Identifier.RoundTrip

namespace SqlCompose.Identifier

/-! ## The grammar -/

/-- A letter of the ASCII alphabet. -/
def Letter (c : Char) : Prop := ('A' ≤ c ∧ c ≤ 'Z') ∨ ('a' ≤ c ∧ c ≤ 'z')

/-- A letter or an underscore, and then any letters, digits, underscores and dollar
    signs. -/
inductive WordText : List Char → Prop where
  | start {c : Char} (h : Letter c ∨ c = '_') : WordText [c]
  | more {cs : List Char} {c : Char} (h_word : WordText cs)
      (h : Letter c ∨ ('0' ≤ c ∧ c ≤ '9') ∨ c = '_' ∨ c = '$') : WordText (cs ++ [c])

/-- What can stand between two quotes: quotes in pairs, and any other characters. -/
inductive NameText : List Char → Prop where
  | empty : NameText []
  | char {c : Char} {cs : List Char} (h : c ≠ '"') (h_name : NameText cs) : NameText (c :: cs)
  | pair {cs : List Char} (h_name : NameText cs) : NameText ('"' :: '"' :: cs)

/-- A word, or a name between quotes. -/
inductive PartText : List Char → Prop where
  | word {cs : List Char} (h : WordText cs) : PartText cs
  | quoted {cs : List Char} (h : NameText cs) (h_some : cs ≠ []) : PartText ('"' :: (cs ++ ['"']))

/-- Parts with single dots between them. -/
inductive IdentifierText : List Char → Prop where
  | part {cs : List Char} (h : PartText cs) : IdentifierText cs
  | dotted {cs rest : List Char} (h : PartText cs) (h_rest : IdentifierText rest) :
      IdentifierText (cs ++ '.' :: rest)

/-- A part that the grammar has a text for, without NUL. -/
def Part.Legal : Part → Prop
  | .word text => WordText text.toList
  | .quoted name => name ≠ "" ∧ '\x00' ∉ name.toList

/-! ## Words -/

theorem isWordStart_iff {c : Char} : isWordStart c = true ↔ Letter c ∨ c = '_' := by
  simp only [isWordStart, Letter, Bool.or_eq_true, decide_eq_true_eq, Text.isAlpha_iff]
  tauto

theorem isWordRest_iff {c : Char} :
    isWordRest c = true ↔ Letter c ∨ ('0' ≤ c ∧ c ≤ '9') ∨ c = '_' ∨ c = '$' := by
  simp only [isWordRest, Letter, Char.isAlphanum, Char.isDigit, Bool.or_eq_true, Bool.and_eq_true,
    decide_eq_true_eq, Char.le_def, Text.isAlpha_iff]
  tauto

theorem isWordRest_of_isWordStart {c : Char} (h : isWordStart c = true) : isWordRest c = true := by
  have h_start := isWordStart_iff.mp h
  rw [isWordRest_iff]
  tauto

theorem WordText.append {cs ds : List Char} (h : WordText cs) (h_rest : ds.all isWordRest = true) :
    WordText (cs ++ ds) := by
  induction ds generalizing cs with
  | nil =>
      rw [List.append_nil]
      exact h
  | cons d ds ih =>
      rw [List.all_cons, Bool.and_eq_true] at h_rest
      have h_next : WordText (cs ++ [d]) := .more h (isWordRest_iff.mp h_rest.1)
      have h_all := ih h_next h_rest.2
      rw [List.append_assoc, List.singleton_append] at h_all
      exact h_all

theorem wordText_iff {cs : List Char} : WordText cs ↔ isWord cs = true := by
  constructor
  · intro h
    induction h with
    | start h => simp [isWord, isWordStart_iff.mpr h]
    | @more cs c h_word h ih =>
        -- A word is not empty, so the new character is one of the continuing ones.
        cases cs with
        | nil => simp [isWord] at ih
        | cons d cs =>
            rw [isWord, Bool.and_eq_true] at ih
            rw [List.cons_append, isWord, ih.1, List.all_append, ih.2]
            simp [isWordRest_iff.mpr h]
  · intro h
    cases cs with
    | nil => simp [isWord] at h
    | cons c cs =>
        rw [isWord, Bool.and_eq_true] at h
        have h_start : WordText [c] := .start (isWordStart_iff.mp h.1)
        exact h_start.append h.2

/-- Every character of a word is a continuing one. -/
theorem isWordRest_of_mem {cs : List Char} (h : isWord cs = true) {c : Char} (h_c : c ∈ cs) :
    isWordRest c = true := by
  cases cs with
  | nil => exact absurd h_c List.not_mem_nil
  | cons d cs =>
      rw [isWord, Bool.and_eq_true] at h
      rcases List.mem_cons.mp h_c with rfl | h_c
      · exact isWordRest_of_isWordStart h.1
      · exact List.all_eq_true.mp h.2 c h_c

/-! ## Names -/

theorem nameText_doubled (name : List Char) : NameText (Text.doubled '"' name) := by
  induction name with
  | nil => exact .empty
  | cons c name ih =>
      rw [Text.doubled]
      by_cases h_c : c = '"'
      · rw [if_pos h_c]
        exact .pair ih
      · rw [if_neg h_c]
        exact .char h_c ih

theorem NameText.exists_doubled {cs : List Char} (h : NameText cs) :
    ∃ name, cs = Text.doubled '"' name := by
  induction h with
  | empty => exact ⟨[], rfl⟩
  | @char c cs h_c h_name ih =>
      obtain ⟨name, rfl⟩ := ih
      exact ⟨c :: name, by rw [Text.doubled, if_neg h_c]⟩
  | @pair cs h_name ih =>
      obtain ⟨name, rfl⟩ := ih
      exact ⟨'"' :: name, by rw [Text.doubled, if_pos rfl]⟩

/-! ## Parts -/

theorem toList_quoted (name : String) :
    (Part.quoted name).sql.toList = '"' :: (Text.doubled '"' name.toList ++ ['"']) := by
  rw [Part.sql, Text.quoted, String.toList_ofList]
  rfl

/-- The texts of the grammar for parts are those that parts are written as. -/
theorem partText_iff {cs : List Char} :
    PartText cs ↔ ∃ p : Part, p.isWellFormed = true ∧ p.sql.toList = cs := by
  constructor
  · intro h
    cases h with
    | word h_word =>
        refine ⟨.word (String.ofList cs), ?_, ?_⟩
        · rw [Part.isWellFormed, String.toList_ofList]
          exact wordText_iff.mp h_word
        · rw [Part.sql, String.toList_ofList]
    | quoted h_name h_some =>
        obtain ⟨name, rfl⟩ := h_name.exists_doubled
        have h_nonempty : name ≠ [] := fun h_nil => h_some (Text.doubled_eq_nil_iff.mpr h_nil)
        refine ⟨.quoted (String.ofList name), ?_, ?_⟩
        · simp [Part.isWellFormed, h_nonempty]
        · rw [toList_quoted, String.toList_ofList]
  · rintro ⟨p, h_formed, rfl⟩
    cases p with
    | word text => exact .word (wordText_iff.mpr h_formed)
    | quoted name =>
        have h_nonempty : name.toList ≠ [] := by simpa [Part.isWellFormed] using h_formed
        rw [toList_quoted]
        refine .quoted (nameText_doubled name.toList) fun h => ?_
        exact h_nonempty (Text.doubled_eq_nil_iff.mp h)

theorem identifierText_iff {cs : List Char} :
    IdentifierText cs ↔ ∃ parts : List Part,
      parts ≠ [] ∧ parts.all Part.isWellFormed = true ∧ cs = (Identifier.mk parts).sql.toList := by
  constructor
  · intro h
    induction h with
    | part h =>
        obtain ⟨p, h_formed, rfl⟩ := partText_iff.mp h
        exact ⟨[p], by simp, by simp [h_formed], by rw [sql_singleton]⟩
    | dotted h h_rest ih =>
        obtain ⟨p, h_formed, rfl⟩ := partText_iff.mp h
        obtain ⟨parts, h_nonempty, h_all, rfl⟩ := ih
        obtain ⟨q, qs, rfl⟩ := List.exists_cons_of_ne_nil h_nonempty
        refine ⟨p :: q :: qs, by simp, ?_, ?_⟩
        · rw [List.all_cons, h_formed, h_all]
          rfl
        · rw [sql_cons_cons, String.toList_append, String.toList_append, List.append_assoc]
          rfl
  · rintro ⟨parts, h_nonempty, h_all, rfl⟩
    induction parts with
    | nil => exact absurd rfl h_nonempty
    | cons p parts ih =>
        rw [List.all_cons, Bool.and_eq_true] at h_all
        have h_part : PartText p.sql.toList := partText_iff.mpr ⟨p, h_all.1, rfl⟩
        cases parts with
        | nil =>
            rw [sql_singleton]
            exact .part h_part
        | cons q qs =>
            have h_rest := ih (by simp) h_all.2
            rw [sql_cons_cons, String.toList_append, String.toList_append, List.append_assoc]
            exact .dotted h_part h_rest

/-! ## Reading what is written -/

/-- Where a part ends: at the end of the text, or at a dot. -/
def EndsPart (rest : List Char) : Prop := ∀ c ∈ rest.head?, c = '.'

theorem endsPart_nil : EndsPart [] := by
  intro c h
  simp at h

theorem endsPart_dot (rest : List Char) : EndsPart ('.' :: rest) := by
  intro c h
  simpa using h.symm

theorem readWord_append {cs rest : List Char} (h : isWord cs = true) (h_ends : EndsPart rest) :
    readWord (cs ++ rest) = .ok (.word (String.ofList cs), rest) := by
  have h_noDot : ∀ c ∈ cs, (decide (c ≠ '.')) = true := by
    intro c h_c
    have h_rest := isWordRest_of_mem h h_c
    rw [decide_eq_true_eq]
    rintro rfl
    exact absurd h_rest (by decide)
  -- The word is the run up to the dot, whatever comes behind the dot.
  have h_run : (cs ++ rest).takeWhile (· ≠ '.') = cs := by
    rw [List.takeWhile_append_of_pos h_noDot]
    cases rest with
    | nil => exact List.append_nil cs
    | cons c rest =>
        have h_dot : c = '.' := h_ends c rfl
        simp [h_dot]
  have h_after : (cs ++ rest).dropWhile (· ≠ '.') = rest := by
    rw [List.dropWhile_append_of_pos h_noDot]
    cases rest with
    | nil => rfl
    | cons c rest =>
        have h_dot : c = '.' := h_ends c rfl
        simp [h_dot]
  cases cs with
  | nil => simp [isWord] at h
  | cons c cs =>
      rw [isWord, Bool.and_eq_true] at h
      have h_none : cs.find? (!isWordRest ·) = none := by
        rw [List.find?_eq_none]
        intro d h_d
        simp [List.all_eq_true.mp h.2 d h_d]
      rw [readWord, h_run, h_after]
      simp only [h.1, h_none, Bool.not_true, Bool.false_eq_true, if_false]

/-- A part is read as it was written if the text ends behind it or goes on with a dot. -/
theorem readPart_append {p : Part} {rest : List Char} (h : p.isWellFormed = true)
    (h_ends : EndsPart rest) : readPart (p.sql.toList ++ rest) = .ok (p, rest) := by
  cases p with
  | word text =>
      have h_read : readWord (text.toList ++ rest) = .ok (.word text, rest) := by
        rw [readWord_append h h_ends, String.ofList_toList]
      rw [Part.sql, readPart, h_read]
      -- A quote starts no word.
      intro tail h_quote
      rw [Part.isWellFormed] at h
      cases h_text : text.toList with
      | nil => simp [h_text, isWord] at h
      | cons c cs =>
          rw [h_text, List.cons_append, List.cons.injEq] at h_quote
          rw [h_text, isWord, h_quote.1] at h
          exact absurd h (by simp [isWordStart])
  | quoted name =>
      have h_noQuote : rest.head? ≠ some '"' := by
        intro h_head
        have h_dot := h_ends '"' h_head
        exact absurd h_dot (by decide)
      have h_read := Text.readQuoted_doubled_append '"' name.toList rest h_noQuote
      have h_nonempty : name.toList ≠ [] := by simpa [Part.isWellFormed] using h
      obtain ⟨c, cs, h_name⟩ := List.exists_cons_of_ne_nil h_nonempty
      rw [toList_quoted, List.cons_append, List.append_assoc, List.singleton_append, readPart,
        readName, h_read, h_name]
      simp only [← h_name, String.ofList_toList]

theorem readParts_nil : readParts [] = .error .emptyPart := by
  rw [readParts]
  rfl

theorem readParts_of_last {cs : List Char} {p : Part} (h : readPart cs = .ok (p, [])) :
    readParts cs = .ok [p] := by
  rw [readParts]
  split
  · rename_i h_read
    simp [h] at h_read
  · rename_i h_read
    rw [h, Except.ok.injEq, Prod.mk.injEq] at h_read
    rw [h_read.1]
  · rename_i h_read
    simp [h] at h_read
  · rename_i h_read
    simp [h] at h_read
  · rename_i h_read
    simp [h] at h_read

theorem readParts_of_dot {cs rest : List Char} {p : Part} {parts : List Part}
    (h : readPart cs = .ok (p, '.' :: rest)) (h_some : rest ≠ [])
    (h_rest : readParts rest = .ok parts) : readParts cs = .ok (p :: parts) := by
  rw [readParts]
  split
  · rename_i h_read
    simp [h] at h_read
  · rename_i h_read
    simp [h] at h_read
  · rename_i h_read
    simp [h, h_some] at h_read
  · rename_i h_read
    rw [h, Except.ok.injEq, Prod.mk.injEq, List.cons.injEq] at h_read
    obtain ⟨rfl, -, rfl⟩ := h_read
    rw [h_rest]
  · rename_i h_noDot h_read
    rw [h, Except.ok.injEq, Prod.mk.injEq, List.cons.injEq] at h_read
    exact absurd h_read.2.1.symm h_noDot

/-- Parts that are written with dots between them are read. -/
theorem readParts_sql {parts : List Part} (h_some : parts ≠ [])
    (h : parts.all Part.isWellFormed = true) :
    readParts (Identifier.mk parts).sql.toList = .ok parts := by
  induction parts with
  | nil => exact absurd rfl h_some
  | cons p parts ih =>
      rw [List.all_cons, Bool.and_eq_true] at h
      cases parts with
      | nil =>
          have h_read := readPart_append h.1 endsPart_nil
          rw [List.append_nil] at h_read
          rw [sql_singleton]
          exact readParts_of_last h_read
      | cons q qs =>
          have h_read := readPart_append h.1 (endsPart_dot (Identifier.mk (q :: qs)).sql.toList)
          have h_rest := ih (by simp) h.2
          -- What is read is not empty, so the dot is not a trailing one.
          have h_more : (Identifier.mk (q :: qs)).sql.toList ≠ [] := by
            intro h_nil
            rw [h_nil, readParts_nil] at h_rest
            cases h_rest
          rw [sql_cons_cons, String.toList_append, String.toList_append, List.append_assoc]
          exact readParts_of_dot h_read h_more h_rest

/-- Reading gives exactly the well-formed parts that are written as the text. -/
theorem readParts_eq_ok_iff {cs : List Char} {parts : List Part} :
    readParts cs = .ok parts ↔
      cs = (Identifier.mk parts).sql.toList ∧ parts ≠ [] ∧
        parts.all Part.isWellFormed = true := by
  constructor
  · exact readParts_eq_ok
  · rintro ⟨rfl, h_some, h_all⟩
    exact readParts_sql h_some h_all

/-! ## Identifiers -/

/-- A text is read if it holds no NUL and its parts are. -/
theorem parse_eq_ok_iff {s : String} {i : Identifier} :
    parse s = .ok i ↔ '\x00' ∉ s.toList ∧ readParts s.toList = .ok i.parts := by
  constructor
  · intro h
    have h_read := read_eq_ok (parse_eq_ok h)
    exact ⟨by simpa using h_read.1, h_read.2⟩
  · rintro ⟨h_nul, h_parts⟩
    have h_some : s.isEmpty = false := by
      rw [← Bool.not_eq_true, String.isEmpty_iff]
      rintro rfl
      rw [String.toList_empty, readParts_nil] at h_parts
      cases h_parts
    have h_contains : s.toList.contains '\x00' = false := by simpa using h_nul
    simp only [parse, read, h_some, h_contains, h_parts, Bool.false_eq_true, if_false]

/-- What is refused is refused as an identifier, with the first fault in words. -/
theorem parse_eq_error {s : String} {e : ComposeError} (h : parse s = .error e) :
    ∃ defect, read s = .error defect ∧ e = .invalidIdentifier (defect.message s) := by
  rw [parse] at h
  cases h_read : read s with
  | ok i => simp [h_read] at h
  | error defect =>
      rw [h_read, Except.error.injEq] at h
      exact ⟨defect, rfl, h.symm⟩

theorem exists_parse_iff {s : String} :
    (∃ i, parse s = .ok i) ↔ '\x00' ∉ s.toList ∧ IdentifierText s.toList := by
  rw [identifierText_iff]
  constructor
  · rintro ⟨i, h⟩
    obtain ⟨h_nul, h_parts⟩ := parse_eq_ok_iff.mp h
    obtain ⟨h_text, h_some, h_all⟩ := readParts_eq_ok_iff.mp h_parts
    exact ⟨h_nul, i.parts, h_some, h_all, h_text⟩
  · rintro ⟨h_nul, parts, h_some, h_all, h_text⟩
    refine ⟨⟨parts⟩, parse_eq_ok_iff.mpr ⟨h_nul, ?_⟩⟩
    exact readParts_eq_ok_iff.mpr ⟨h_text, h_some, h_all⟩

theorem isValid_iff_legal {p : Part} : p.isValid = true ↔ p.Legal := by
  cases p with
  | word text => exact wordText_iff.symm
  | quoted name => simp [Part.isValid, Part.Legal]

/-- A part that can be denoted has no NUL in its text. -/
theorem nul_notMem_sql {p : Part} (h : p.isValid = true) : '\x00' ∉ p.sql.toList := by
  intro h_nul
  cases p with
  | word text =>
      have h_rest := isWordRest_of_mem h h_nul
      exact absurd h_rest (by decide)
  | quoted name =>
      have h_legal := isValid_iff_legal.mp h
      rw [toList_quoted, List.mem_cons, List.mem_append, List.mem_singleton] at h_nul
      rcases h_nul with h_quote | h_name | h_quote
      · exact absurd h_quote (by decide)
      · exact h_legal.2 (Text.mem_doubled_iff.mp h_name)
      · exact absurd h_quote (by decide)

theorem isWellFormed_of_isValid {p : Part} (h : p.isValid = true) : p.isWellFormed = true := by
  cases p with
  | word text => exact h
  | quoted name =>
      rw [Part.isValid, Bool.and_eq_true] at h
      exact h.1

/-- A character of an identifier is a dot or stands in one of its parts. -/
theorem mem_part_of_mem_sql {parts : List Part} {c : Char}
    (h : c ∈ (Identifier.mk parts).sql.toList) : c = '.' ∨ ∃ p ∈ parts, c ∈ p.sql.toList := by
  induction parts with
  | nil => simp [sql] at h
  | cons p parts ih =>
      cases parts with
      | nil =>
          rw [sql_singleton] at h
          exact Or.inr ⟨p, List.mem_cons_self, h⟩
      | cons q qs =>
          rw [sql_cons_cons, String.toList_append, String.toList_append, List.append_assoc,
            List.mem_append, List.mem_append] at h
          rcases h with h_first | h_dot | h_rest
          · exact Or.inr ⟨p, List.mem_cons_self, h_first⟩
          · exact Or.inl (by simpa using h_dot)
          · rcases ih h_rest with h_dot | ⟨r, h_r, h_c⟩
            · exact Or.inl h_dot
            · exact Or.inr ⟨r, List.mem_cons_of_mem p h_r, h_c⟩

/-- A valid identifier is read back from its text. -/
theorem parse_sql {i : Identifier} (h : i.isValid = true) : parse i.sql = .ok i := by
  rw [isValid, Bool.and_eq_true, List.all_eq_true] at h
  have h_formed : i.parts.all Part.isWellFormed = true := by
    rw [List.all_eq_true]
    exact fun p h_p => isWellFormed_of_isValid (h.2 p h_p)
  have h_nul : '\x00' ∉ i.sql.toList := by
    intro h_in
    rcases mem_part_of_mem_sql h_in with h_dot | ⟨p, h_p, h_c⟩
    · exact absurd h_dot (by decide)
    · exact nul_notMem_sql (h.2 p h_p) h_c
  have h_some : i.parts ≠ [] := by simpa using h.1
  exact parse_eq_ok_iff.mpr ⟨h_nul, readParts_sql h_some h_formed⟩

/-- Reading succeeds on the texts of the grammar that hold no NUL, and refuses every
    other text as no identifier. What is read is written back as it was, and an
    identifier is read back from its text if and only if it has a part and the grammar
    has texts for all of its parts. -/
theorem parse_sql_inverse :
    (∀ s : String, ((∃ i, parse s = .ok i) ↔ '\x00' ∉ s.toList ∧ IdentifierText s.toList) ∧
      ((¬∃ i, parse s = .ok i) → ∃ detail, parse s = .error (.invalidIdentifier detail))) ∧
    (∀ (s : String) (i : Identifier), parse s = .ok i → i.sql = s) ∧
    ∀ i : Identifier, parse i.sql = .ok i ↔ i.parts ≠ [] ∧ ∀ p ∈ i.parts, p.Legal := by
  refine ⟨?_, fun s i h => sql_of_parse h, ?_⟩
  · intro s
    refine ⟨exists_parse_iff, ?_⟩
    intro h_none
    cases h_parse : parse s with
    | ok i => exact absurd ⟨i, h_parse⟩ h_none
    | error e =>
        obtain ⟨defect, -, rfl⟩ := parse_eq_error h_parse
        exact ⟨_, rfl⟩
  · intro i
    have h_valid : i.isValid = true ↔ i.parts ≠ [] ∧ ∀ p ∈ i.parts, p.Legal := by
      simp [isValid, isValid_iff_legal]
    rw [← h_valid]
    exact ⟨isValid_of_parse, parse_sql⟩

/-- A word and a name with a quote and a dot in it are read; a dot at the end is not. -/
theorem parse_sql_inverse_mixed :
    let s := "u.\"a\"\".b\""
    let i : Identifier := ⟨[.word "u", .quoted "a\".b"]⟩
    (parse s = .ok i ∧ i.sql = s) ∧
      (¬∃ j, parse "u." = .ok j) ∧ ∃ detail, parse "u." = .error (.invalidIdentifier detail) := by
  intro s i
  have h_sql : i.sql = s := by decide
  have h_parse : parse s = .ok i := by
    rw [← h_sql]
    exact parse_sql (by decide)
  have h_refused : ¬∃ j, parse "u." = .ok j := by
    rintro ⟨j, h_j⟩
    rw [parse, read, readParts] at h_j
    cases h_j
  exact ⟨⟨h_parse, parse_sql_inverse.2.1 s i h_parse⟩, h_refused,
    (parse_sql_inverse.1 "u.").2 h_refused⟩

end SqlCompose.Identifier
