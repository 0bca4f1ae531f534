/-
  SqlCompose.Proofs.Token.Documents

  JSON data cannot add SQL to a text. Whatever data a plan has for leaves, if it can
  be read at all, the text of the plan has the tokens that `Plan.slots` lists: the
  words and parentheses of groups, and for every comparison of the data an
  identifier, an operator and the place of a value, of a list of values or of NULL
  (`Plan.exists_lex_of_build_documents`). The lexer knows nothing of how the text
  came about, so a quote, a dollar sign or a dash in a key cannot be mistaken for
  anything but a part of a name.

  `Plan.slots` is built bottom-up like the outline of the plan, from the comparisons
  of the data alone. That the two agree is `Plan.related_role`, with
  `Outline.Writes` as the relation.
-/
import SqlCompose.Proofs.Document
import SqlCompose.Proofs.Token.Slots

namespace SqlCompose

/-! ## Slots of data -/

/-- The token of a part. -/
def Identifier.Part.lexeme : Identifier.Part → Lexeme
  | .word text => .word text
  | .quoted name => .name name

/-- The parts with dots between them. -/
def Identifier.slots (i : Identifier) : List Slot :=
  [.symbol "."].intercalate (i.parts.map ([.lexeme ·.lexeme]))

/-- The words of an operator, or its symbol. -/
def operatorLexemes (operator : String) : List Lexeme :=
  (Text.words operator.toList).map fun w =>
    if isWord w then .word (String.ofList w) else .symbol (String.ofList w)

namespace Comparison

/-- Column and operator. -/
def headSlots (q : Comparison) : List Slot :=
  q.column.slots ++ (operatorLexemes q.operator).map .lexeme

/-- Column, operator and operand. -/
def slots (q : Comparison) : List Slot := q.headSlots ++ q.bindings.slots

end Comparison

/-- Groups and WHERE clauses over data. -/
def Target.slots : Target Document (List Slot) :=
  ⟨Document.role Comparison.slots Connective.and.slots, Connective.slots, Slot.filtered⟩

/-- The tokens of a plan over data, with its values in their places. -/
def Plan.slots (plan : Plan Document) : List Slot := (plan.role Target.slots).whole

/-- The JSON values that a plan over data binds, from left to right. -/
def Plan.bound (plan : Plan Document) : List Json := plan.leaves.flatMap Document.bound

section Lexing

open Lexer

/-! ## Identifiers -/

theorem startsWord_of_isWordStart {c : Char} (h : isWordStart c = true) :
    startsWord c = true := by
  simp only [isWordStart, Bool.or_eq_true, decide_eq_true_eq, Text.isAlpha_iff] at h
  simp only [startsWord, Bool.or_eq_true, Bool.and_eq_true, decide_eq_true_eq]
  tauto

theorem continuesWord_of_isWordRest {c : Char} (h : isWordRest c = true) :
    continuesWord c = true := by
  simp only [isWordRest, Char.isAlphanum, Bool.or_eq_true] at h
  rw [continuesWord, Bool.or_eq_true, Bool.or_eq_true]
  rcases h with (h | h) | h | h
  · exact Or.inl (Or.inl (startsWord_of_isWordStart (by simp [isWordStart, h])))
  · exact Or.inr h
  · exact Or.inl (Or.inl (startsWord_of_isWordStart (by simp [isWordStart, h])))
  · refine Or.inl (Or.inr ?_)
    simpa [Char.isDigit, Char.le_def] using h

theorem lexes_part {p : Identifier.Part} (h : p.isValid = true) :
    Lexes p.sql.toList [.lexeme p.lexeme] := by
  cases p with
  | quoted name => exact lexes_quoted name
  | word text =>
      rw [Identifier.Part.isValid] at h
      rw [Identifier.Part.sql, Identifier.Part.lexeme]
      cases h_text : text.toList with
      | nil => simp [h_text, isWord] at h
      | cons c cs =>
          rw [h_text, isWord, Bool.and_eq_true] at h
          have h_rest : cs.all continuesWord = true := by
            rw [List.all_eq_true] at h ⊢
            exact fun d h_d => continuesWord_of_isWordRest (h.2 d h_d)
          have h_lexes := lexes_word (startsWord_of_isWordStart h.1) h_rest
          rw [← h_text, String.ofList_toList] at h_lexes
          rw [← h_text]
          exact h_lexes

theorem Identifier.values_slots (i : Identifier) : Slot.values i.slots = [] := by
  rw [Identifier.slots, Slot.symbol, Slot.values_intercalate, List.flatMap_map]
  exact List.flatMap_eq_nil_iff.mpr fun _ _ => rfl

theorem Identifier.lexes_sql {i : Identifier} (h : i.isValid = true) (style : MarkerStyle)
    (bound : Nat) : Lexes i.sql.toList (Slot.tokens style bound i.slots) := by
  rw [Identifier.isValid, Bool.and_eq_true, List.all_eq_true] at h
  have h_dot : Divides "." (.lexeme (.symbol ".")) := by
    refine ⟨⟨'.', [], rfl, Or.inr (Or.inl rfl)⟩, ?_⟩
    exact closes_of_start rfl
  -- A part has no values, so all of them start from the same number.
  have h_lists : Slot.tokenLists style bound (i.parts.map ([Slot.lexeme ·.lexeme]))
      = i.parts.map ([Token.lexeme ·.lexeme]) := by
    induction i.parts with
    | nil => rfl
    | cons p parts ih =>
        rw [List.map_cons, Slot.tokenLists, List.map_cons]
        exact congrArg _ ih
  rw [Identifier.sql, Identifier.slots, Slot.symbol, Slot.tokens_intercalate, h_lists]
  refine lexes_intercalate h_dot ?_
  rw [List.forall₂_map_left_iff, List.forall₂_map_right_iff, List.forall₂_same]
  exact fun p h_p => lexes_part (h.2 p h_p)

/-! ## Comparisons -/

theorem Slot.values_lexemes (ls : List Lexeme) : Slot.values (ls.map .lexeme) = [] := by
  induction ls with
  | nil => rfl
  | cons l ls ih => exact ih

theorem Slot.tokens_lexemes (style : MarkerStyle) (bound : Nat) (ls : List Lexeme) :
    Slot.tokens style bound (ls.map .lexeme) = ls.map .lexeme := by
  induction ls with
  | nil => rfl
  | cons l ls ih => rw [List.map_cons, Slot.tokens, ih, List.map_cons]

/-- Each operator has its words, or its symbol, for tokens. -/
theorem lex_operator : ∀ operator ∈ Condition.operators,
    run .between operator.toList = some ((operatorLexemes operator).map .lexeme) := by
  decide

namespace Comparison

theorem values_headSlots (q : Comparison) : Slot.values q.headSlots = [] := by
  rw [headSlots, Slot.values_append, Identifier.values_slots, Slot.values_lexemes]
  rfl

theorem writes_outline {q : Comparison} (h : q.Lawful) : q.outline.Writes q.slots := by
  have h_head : q.head ≠ "" := by
    intro h_empty
    have h_chars := congrArg String.toList h_empty
    simp [head] at h_chars
  have h_lexes : ∀ style bound, Lexes q.head.toList (Slot.tokens style bound q.headSlots) := by
    intro style bound
    have h_text : q.head.toList = q.column.sql.toList ++ ' ' :: q.operator.toList := by
      simp [head]
    rw [h_text, headSlots, Slot.tokens_append, Slot.tokens_lexemes]
    exact (Identifier.lexes_sql h.column style bound).append_space
      (lexes_of_run (lex_operator q.operator h.operator))
  exact Operand.writes_outline h_head q.values_headSlots h_lexes q.bindings

end Comparison

end Lexing

/-! ## Plans over data -/

theorem Plan.writes_role (plan : Plan Document)
    (h_lawful : ∀ d ∈ plan.leaves, ∀ q ∈ d.json.comparisons, q.Lawful) :
    Role.Related Outline.Writes (plan.role (.outlines Document.outlines))
      (plan.role Target.slots) := by
  have h_target : Target.Related Outline.Writes (Target.outlines Document.outlines)
      Target.slots := by
    constructor
    · exact fun connective _ _ h => connective.writes_outline h
    · exact fun _ _ h => Outline.writes_filtered h
  refine plan.related_role h_target ?_
  intro d h_d
  apply Document.related_role
  · rfl
  · rw [List.forall₂_same]
    exact fun q h_q => Comparison.writes_outline (h_lawful d h_d q h_q)
  · exact fun _ _ h => Connective.and.writes_outline h

/-- The text of a plan over data that can be read has the tokens of the plan, in which
    the data contributes identifiers and operators only; its markers are those of the
    values that are bound, and these are the operands of the data, in order. -/
theorem Plan.exists_lex_of_build_documents (plan : Plan Document)
    (h_read : ∀ d ∈ plan.leaves, ∃ events condition after,
      (Condition.ofJson d.json).outcome events = (.ok condition, after))
    (h_filled : plan.isFilled = true) (h_root : ∀ d, plan ≠ .leaf d) :
    ∃ f : Fragment, (plan.build fun d => Condition.ofJson d.json).Gives (.fragment f) ∧
      (∀ d ∈ plan.leaves, ∀ q ∈ d.json.comparisons, q.Lawful) ∧
      ∀ c : Collector, ∃ sql : String,
        c.run f.render = (sql, { c with values := c.values ++ plan.bound.map Value.ofJson }) ∧
          Token.lex sql = some (Slot.tokens c.style c.values.size plan.slots) ∧
          (Slot.tokens c.style c.values.size plan.slots).filterMap Token.marker?
            = (List.range' (c.values.size + 1) plan.bound.length).map c.style.marker := by
  -- Every leaf is read, so its comparisons are lawful and it plays its role.
  have h_leaves : ∀ d ∈ plan.leaves, ∃ condition, Condition.read d.json = .ok condition := by
    intro d h_d
    obtain ⟨events, condition, after, h_outcome⟩ := h_read d h_d
    exact ⟨condition, Condition.read_of_ofJson h_outcome⟩
  have h_lawful : ∀ d ∈ plan.leaves, ∀ q ∈ d.json.comparisons, q.Lawful := by
    intro d h_d q h_q
    obtain ⟨condition, h_condition⟩ := h_leaves d h_d
    exact Condition.lawful_of_read h_condition h_q
  have h_built : ∀ d ∈ plan.leaves, ∃ condition,
      (Condition.ofJson d.json).Gives condition ∧ condition.Plays d.outlines := by
    intro d h_d
    obtain ⟨condition, h_condition⟩ := h_leaves d h_d
    exact ⟨condition, Condition.gives_of_read h_condition, Document.plays_of_read h_condition⟩
  -- What is built has the outline of the plan, which writes the slots of the plan.
  obtain ⟨condition, h_gives, h_plays⟩ := plan.gives_build h_built h_filled
  obtain ⟨f, rfl⟩ := Plan.exists_fragment_of_gives h_root h_gives
  have h_writes : f.outline.Writes plan.slots := by
    rw [h_plays.outline_eq]
    exact (Plan.writes_role plan h_lawful).whole
  have h_values : f.outline.values = plan.bound.map Value.ofJson := by
    rw [h_plays.outline_eq, Plan.bound, List.map_flatMap]
    exact (plan.binds_role fun d _ => d.binds_role).whole
  refine ⟨f, h_gives, h_lawful, ?_⟩
  intro c
  refine ⟨f.outline.sql c.style c.values.size, ?_, ?_, ?_⟩
  · rw [f.binds_outline h_plays.plain c, h_values]
    rfl
  · exact (h_writes.lexes c.style c.values.size).lex
  · rw [Slot.markers_tokens, h_writes.values, h_values, List.length_map]

/-- A name with a quote and a question mark in it, and one with a marker and a comment. -/
theorem Plan.exists_lex_of_build_hostile_documents :
    let pair : Document := ⟨.array [.string "\"a\"\"b?\"  not in", .array [.null, .string "x' --"]],
      ⟨trivial, ⟨trivial, trivial, trivial⟩, trivial⟩⟩
    let object : Document := ⟨.object [("\"$1 --\"", .bool true)],
      ⟨List.pairwise_singleton _ _, trivial, trivial⟩⟩
    let plan : Plan Document := .filtered [.leaf pair, .group .or [.leaf object]]
    (∀ d ∈ plan.leaves, ∃ events condition after,
        (Condition.ofJson d.json).outcome events = (.ok condition, after)) ∧
      plan.isFilled = true ∧ (∀ d, plan ≠ .leaf d) ∧
      ∃ f : Fragment, (plan.build fun d => Condition.ofJson d.json).Gives (.fragment f) ∧
        (∀ d ∈ plan.leaves, ∀ q ∈ d.json.comparisons, q.Lawful) ∧
        ∀ c : Collector, ∃ sql : String,
          c.run f.render = (sql, { c with values := c.values ++ plan.bound.map Value.ofJson }) ∧
            Token.lex sql = some (Slot.tokens c.style c.values.size plan.slots) ∧
            (Slot.tokens c.style c.values.size plan.slots).filterMap Token.marker?
              = (List.range' (c.values.size + 1) plan.bound.length).map c.style.marker := by
  intro pair object plan
  -- Both documents are read.
  have h_column : Identifier.parse "\"a\"\"b?\"" = .ok ⟨[.quoted "a\"b?"]⟩ := by
    rw [Identifier.parse, Identifier.read, Identifier.readParts]
    rfl
  have h_key : Identifier.parse "\"$1 --\"" = .ok ⟨[.quoted "$1 --"]⟩ := by
    rw [Identifier.parse, Identifier.read, Identifier.readParts]
    rfl
  have h_head : Condition.readHead "\"a\"\"b?\"  not in" = .ok "\"a\"\"b?\" NOT IN" := by
    have h_cut : Text.cutAtBlank (Text.trimBlanks "\"a\"\"b?\"  not in".toList)
        = some ("\"a\"\"b?\"".toList, " not in".toList) := by decide
    have h_operator : Condition.canonicalOperator " not in".toList = "NOT IN" := by decide
    simp only [Condition.readHead, h_cut, h_operator, String.ofList_toList, Condition.readColumn,
      h_column]
    rfl
  have h_pair : Condition.read pair.json
      = .ok (.comparison "\"a\"\"b?\" NOT IN" (some (.list [.null, .text "x' --"]))) := by
    show Condition.read (.array [.string _, _]) = _
    rw [Condition.read, h_head]
    rfl
  have h_object : Condition.read object.json
      = .ok (.columns (ColumnMap.empty.assign "\"$1 --\"" (.bool true))) := by
    show Condition.read (.object [_]) = _
    rw [Condition.read, Condition.readMembers, Condition.readColumn, h_key]
    rfl
  have h_read : ∀ d ∈ plan.leaves, ∃ events condition after,
      (Condition.ofJson d.json).outcome events = (.ok condition, after) := by
    intro d h_d
    have h_leaves : plan.leaves = [pair, object] := rfl
    rw [h_leaves, List.mem_cons, List.mem_singleton] at h_d
    rcases h_d with rfl | rfl
    · exact ⟨#[], _, #[], Condition.gives_of_read h_pair #[]⟩
    · exact ⟨#[], _, #[], Condition.gives_of_read h_object #[]⟩
  have h_root : ∀ d, plan ≠ .leaf d := by
    intro d h
    simp [plan] at h
  exact ⟨h_read, rfl, h_root, Plan.exists_lex_of_build_documents plan h_read rfl h_root⟩

end SqlCompose
