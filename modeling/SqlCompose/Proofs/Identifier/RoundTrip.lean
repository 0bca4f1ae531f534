/-
  SqlCompose.Proofs.Identifier.RoundTrip

  What is read as an identifier is written back as it was (`sql_of_parse`), and it is
  a valid identifier (`isValid_of_parse`).

  Both go part by part: each reader takes from the front of the text exactly the
  text of the part that it gives (`readName_eq_ok`, `readWord_eq_ok`), so the parts
  that are read, with a dot between any two, are the text (`readParts_eq_ok`). That
  a quoted name holds no NUL does not follow from reading it, it follows from the
  text, of which the name is a part.
-/
import SqlCompose.Identifier.Reader
import SqlCompose.Proofs.Text.Quoted

namespace SqlCompose

/-! ## Letters -/

theorem Text.isAlpha_iff {c : Char} :
    c.isAlpha = true ↔ ('A' ≤ c ∧ c ≤ 'Z') ∨ ('a' ≤ c ∧ c ≤ 'z') := by
  have h_alpha : c.isAlpha = (decide (c.val ≥ 'A'.val ∧ c.val ≤ 'Z'.val) ||
      (decide (c.val ≥ 'a'.val) && decide (c.val ≤ 'z'.val))) := rfl
  rw [h_alpha, Bool.or_eq_true, Bool.and_eq_true, decide_eq_true_eq, decide_eq_true_eq,
    decide_eq_true_eq]
  rfl

namespace Identifier

/-! ## Parts -/

/-- Whether some text without NUL denotes the part, the NUL apart. -/
def Part.isWellFormed : Part → Bool
  | .word text => isWord text.toList
  | .quoted name => !name.isEmpty

theorem readName_eq_ok {cs rest : List Char} {p : Part} (h : readName cs = .ok (p, rest)) :
    '"' :: cs = p.sql.toList ++ rest ∧ p.isWellFormed = true := by
  unfold readName at h
  split at h
  · simp at h
  · simp at h
  · rename_i name after h_nonempty h_read
    simp only [Except.ok.injEq, Prod.mk.injEq] at h
    obtain ⟨rfl, rfl⟩ := h
    constructor
    · rw [Text.eq_doubled_of_readQuoted h_read]
      simp [Part.sql, Text.quoted]
    · have h_name : name ≠ [] := by
        intro h_nil
        exact h_nonempty h_nil
      simp [Part.isWellFormed, h_name]

/-- A word ends where the text ends or a dot follows. -/
theorem readWord_eq_ok {cs rest : List Char} {p : Part} (h : readWord cs = .ok (p, rest)) :
    cs = p.sql.toList ++ rest ∧ p.isWellFormed = true := by
  unfold readWord at h
  split at h
  · simp at h
  · rename_i c word h_run
    split at h
    · simp at h
    · rename_i h_start
      split at h
      · simp at h
      · rename_i h_rest
        simp only [Except.ok.injEq, Prod.mk.injEq] at h
        obtain ⟨rfl, rfl⟩ := h
        constructor
        · have h_split := List.takeWhile_append_dropWhile (p := (· ≠ '.')) (l := cs)
          rw [h_run] at h_split
          rw [Part.sql, String.toList_ofList, h_split]
        · have h_word : word.all isWordRest = true := by
            rw [List.all_eq_true]
            intro d h_mem
            have := List.find?_eq_none.mp h_rest d h_mem
            simpa using this
          have h_first : isWordStart c = true := by simpa using h_start
          simp [Part.isWellFormed, isWord, h_first, h_word]

theorem readPart_eq_ok {cs rest : List Char} {p : Part} (h : readPart cs = .ok (p, rest)) :
    cs = p.sql.toList ++ rest ∧ p.isWellFormed = true := by
  unfold readPart at h
  split at h
  · exact readName_eq_ok h
  · exact readWord_eq_ok h

/-! ## Identifiers -/

theorem sql_singleton (p : Part) : (Identifier.mk [p]).sql = p.sql := by
  rw [Identifier.sql, List.map_cons, List.map_nil, String.intercalate_singleton]

theorem sql_cons_cons (p q : Part) (parts : List Part) :
    (Identifier.mk (p :: q :: parts)).sql = p.sql ++ "." ++ (Identifier.mk (q :: parts)).sql := by
  rw [Identifier.sql, List.map_cons, List.map_cons, String.intercalate_cons_cons]
  rfl

/-- The parts that are read are, with dots between them, what was read. -/
theorem readParts_eq_ok {cs : List Char} {parts : List Part} (h : readParts cs = .ok parts) :
    cs = (Identifier.mk parts).sql.toList ∧ parts ≠ [] ∧ parts.all Part.isWellFormed = true := by
  fun_induction readParts cs generalizing parts with
  | case1 => simp at h
  | case2 cs p h_part =>
      obtain ⟨h_text, h_valid⟩ := readPart_eq_ok h_part
      simp only [Except.ok.injEq] at h
      subst h
      refine ⟨?_, by simp, by simpa using h_valid⟩
      rw [h_text, sql_singleton, List.append_nil]
  | case3 => simp at h
  | case4 => simp at h
  | case5 cs p rest h_dot h_part more h_more ih =>
      obtain ⟨h_text, h_valid⟩ := readPart_eq_ok h_part
      obtain ⟨h_rest, h_nonempty, h_all⟩ := ih h_more
      simp only [Except.ok.injEq] at h
      subst h
      refine ⟨?_, by simp, by simp [h_valid, h_all]⟩
      obtain ⟨q, qs, rfl⟩ := List.exists_cons_of_ne_nil h_nonempty
      rw [h_text, h_rest, sql_cons_cons, String.toList_append, String.toList_append,
        List.append_assoc]
      rfl
  | case6 => simp at h

theorem read_eq_ok {s : String} {i : Identifier} (h : read s = .ok i) :
    s.toList.contains '\x00' = false ∧ readParts s.toList = .ok i.parts := by
  unfold read at h
  split at h
  · simp at h
  · split at h
    · simp at h
    · rename_i h_nul
      split at h
      · simp at h
      · rename_i parts h_parts
        simp only [Except.ok.injEq] at h
        subst h
        exact ⟨by simpa using h_nul, h_parts⟩

theorem parse_eq_ok {s : String} {i : Identifier} (h : parse s = .ok i) : read s = .ok i := by
  unfold parse at h
  split at h
  · simp at h
  · rename_i j h_read
    simp only [Except.ok.injEq] at h
    rw [h_read, h]

/-- An identifier is written back as it was read. -/
theorem sql_of_parse {s : String} {i : Identifier} (h : parse s = .ok i) : i.sql = s := by
  have h_parts := (read_eq_ok (parse_eq_ok h)).2
  have h_text := (readParts_eq_ok h_parts).1
  exact (String.toList_inj.mp h_text).symm

theorem mem_sql_of_mem_part {parts : List Part} {p : Part} {c : Char} (h_part : p ∈ parts)
    (h_char : c ∈ p.sql.toList) : c ∈ (Identifier.mk parts).sql.toList := by
  induction parts with
  | nil => exact absurd h_part List.not_mem_nil
  | cons q qs ih =>
      cases qs with
      | nil =>
          rw [List.mem_singleton] at h_part
          subst h_part
          rw [sql_singleton]
          exact h_char
      | cons r qs =>
          rw [sql_cons_cons, String.toList_append, List.mem_append]
          rcases List.mem_cons.mp h_part with rfl | h_rest
          · refine Or.inl ?_
            rw [String.toList_append, List.mem_append]
            exact Or.inl h_char
          · exact Or.inr (ih h_rest)

/-- What is read as an identifier is a valid one. -/
theorem isValid_of_parse {s : String} {i : Identifier} (h : parse s = .ok i) :
    i.isValid = true := by
  obtain ⟨h_nul, h_parts⟩ := read_eq_ok (parse_eq_ok h)
  obtain ⟨-, h_nonempty, h_all⟩ := readParts_eq_ok h_parts
  have h_sql := sql_of_parse h
  rw [isValid, Bool.and_eq_true]
  refine ⟨by simpa using h_nonempty, ?_⟩
  rw [List.all_eq_true]
  intro p h_mem
  have h_formed := List.all_eq_true.mp h_all p h_mem
  cases p with
  | word text => exact h_formed
  | quoted name =>
      -- A NUL in the name would be one in the text.
      have h_absent : '\x00' ∉ name.toList := by
        intro h_in
        have h_part : '\x00' ∈ (Part.quoted name).sql.toList := by
          rw [Part.sql, Text.quoted, String.toList_ofList]
          simp [Text.mem_doubled_iff.mpr h_in]
        have h_text := mem_sql_of_mem_part h_mem h_part
        rw [show (Identifier.mk i.parts).sql = s from h_sql] at h_text
        simp [h_text] at h_nul
      simp only [Part.isWellFormed] at h_formed
      simp [Part.isValid, h_absent, h_formed]

end Identifier

end SqlCompose
