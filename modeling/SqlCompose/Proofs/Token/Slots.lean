/-
  SqlCompose.Proofs.Token.Slots

  The tokens of an outline. A `Slot` is a token or the place of a value, as a piece
  of an outline is a text or the place of a value, and `Slot.tokens` numbers the
  markers of the values as `Outline.sql` does.

  `Outline.Writes o ss` is the relation between the two: the text of `o` has the
  tokens of `ss`, on every collector and in both styles. Groups and WHERE clauses
  keep it (`Connective.writes_outline`, `Outline.writes_filtered`), because a token
  of a part ends at the space, the comma or the end that follows the part.
-/
import SqlCompose.Proofs.Outline.Render
import SqlCompose.Proofs.Token.Lexer

namespace SqlCompose

/-- A token, or a value in the place of its marker. -/
inductive Slot where
  | lexeme (l : Lexeme)
  | value (v : Value)

namespace Slot

/-- A keyword. -/
def keyword (text : String) : Slot := .lexeme (.word text)

/-- A symbol. -/
def symbol (text : String) : Slot := .lexeme (.symbol text)

/-- The values, in order. -/
def values : List Slot → List Value
  | [] => []
  | .lexeme _ :: ss => values ss
  | .value v :: ss => v :: values ss

/-- The tokens, if `bound` values were bound before them. -/
def tokens (style : MarkerStyle) (bound : Nat) : List Slot → List Token
  | [] => []
  | .lexeme l :: ss => .lexeme l :: tokens style bound ss
  | .value _ :: ss => .marker (style.marker (bound + 1)) :: tokens style (bound + 1) ss

/-- The tokens of slots that stand one after the other. -/
def tokenLists (style : MarkerStyle) (bound : Nat) : List (List Slot) → List (List Token)
  | [] => []
  | ss :: rest => tokens style bound ss :: tokenLists style (bound + (values ss).length) rest

/-! ## Numbering -/

theorem values_append (ss ts : List Slot) : values (ss ++ ts) = values ss ++ values ts := by
  induction ss with
  | nil => rfl
  | cons s ss ih =>
      cases s with
      | lexeme l => exact ih
      | value v =>
          rw [List.cons_append, values, values, ih]
          rfl

theorem tokens_append (style : MarkerStyle) (bound : Nat) (ss ts : List Slot) :
    tokens style bound (ss ++ ts)
      = tokens style bound ss ++ tokens style (bound + (values ss).length) ts := by
  induction ss generalizing bound with
  | nil => rfl
  | cons s ss ih =>
      cases s with
      | lexeme l =>
          rw [List.cons_append, tokens, tokens, ih]
          rfl
      | value v =>
          have h_count : bound + 1 + (values ss).length
              = bound + (values (.value v :: ss)).length := by
            rw [values, List.length_cons]
            omega
          rw [List.cons_append, tokens, tokens, ih, h_count]
          rfl

theorem values_intercalate (l : Lexeme) (sss : List (List Slot)) :
    values ([.lexeme l].intercalate sss) = sss.flatMap values := by
  induction sss with
  | nil => rfl
  | cons ss sss ih =>
      cases sss with
      | nil => rw [List.intercalate_singleton, List.flatMap_singleton]
      | cons next sss =>
          have h_values : values (ss ++ [.lexeme l]) = values ss := by
            rw [values_append]
            exact List.append_nil (values ss)
          rw [List.intercalate_cons_cons, values_append, h_values, ih]
          rfl

theorem tokens_intercalate (style : MarkerStyle) (bound : Nat) (l : Lexeme)
    (sss : List (List Slot)) :
    tokens style bound ([.lexeme l].intercalate sss)
      = [.lexeme l].intercalate (tokenLists style bound sss) := by
  induction sss generalizing bound with
  | nil => rfl
  | cons ss sss ih =>
      cases sss with
      | nil => rw [List.intercalate_singleton, tokenLists, tokenLists, List.intercalate_singleton]
      | cons next sss =>
          have h_rest := ih (bound + (values ss).length)
          have h_values : values (ss ++ [.lexeme l]) = values ss := by
            rw [values_append]
            exact List.append_nil (values ss)
          have h_lists : tokenLists style bound (ss :: next :: sss)
              = tokens style bound ss :: tokens style (bound + (values ss).length) next
                :: tokenLists style (bound + (values ss).length + (values next).length) sss := rfl
          rw [List.intercalate_cons_cons, tokens_append, tokens_append, h_values, h_rest, h_lists,
            List.intercalate_cons_cons]
          rfl

/-- The markers among the tokens are those of the places that the values take. -/
theorem markers_tokens (style : MarkerStyle) (bound : Nat) (ss : List Slot) :
    (tokens style bound ss).filterMap Token.marker?
      = (List.range' (bound + 1) (values ss).length).map style.marker := by
  induction ss generalizing bound with
  | nil => rfl
  | cons s ss ih =>
      cases s with
      | lexeme l => exact ih bound
      | value v =>
          have h_marker : (Token.marker (style.marker (bound + 1))).marker?
              = some (style.marker (bound + 1)) := rfl
          rw [tokens, List.filterMap_cons_some h_marker, ih, values, List.length_cons,
            List.range'_succ, List.map_cons]

end Slot

/-! ## Slots of conditions -/

/-- A marker, or a list of them; a list without values is the list of NULL. -/
def Operand.slots : Operand → List Slot
  | .value v => [.value v]
  | .list [] => [.symbol "(", .keyword "NULL", .symbol ")"]
  | .list vs => .symbol "(" :: ([.symbol ","].intercalate (vs.map ([.value ·])) ++ [.symbol ")"])

/-- The keyword of a connective. -/
def Connective.keyword : Connective → String
  | .and => "AND"
  | .or => "OR"

/-- A group in parentheses of the parts that are there. -/
def Connective.slots (connective : Connective) (parts : List (List Slot)) : List Slot :=
  let kept := parts.filter (!·.isEmpty)
  if kept.isEmpty then []
  else .symbol "(" :: ([.keyword connective.keyword].intercalate kept ++ [.symbol ")"])

/-- A WHERE clause over a condition that is there. -/
def Slot.filtered (ss : List Slot) : List Slot :=
  if ss.isEmpty then [] else .keyword "WHERE" :: ss

/-! ## Outlines and slots -/

/-- What the outline binds are the values of the slots, its text is empty if there are
    no slots, and has the tokens of the slots. -/
structure Outline.Writes (o : Outline) (ss : List Slot) : Prop where
  values : Slot.values ss = o.values
  blank : o.isBlank = ss.isEmpty
  lexes : ∀ style bound, Lexer.Lexes (o.sql style bound).toList (Slot.tokens style bound ss)

section Writes

open Lexer

/-- The separators of lists and groups. -/
theorem divides_comma : Divides ", " (.lexeme (.symbol ",")) := by
  refine ⟨⟨',', [' '], rfl, Or.inr (Or.inr rfl)⟩, ?_⟩
  have h_text : ", ".toList = [','] ++ [' '] := rfl
  rw [h_text]
  exact (closes_of_start rfl).lexes.closes

theorem Connective.divides_separator (connective : Connective) :
    Divides connective.separator (.lexeme (.word connective.keyword)) := by
  cases connective with
  | and =>
      refine ⟨⟨' ', ['A', 'N', 'D', ' '], rfl, Or.inl rfl⟩, ?_⟩
      have h_text : Connective.and.separator.toList = ' ' :: (['A', 'N', 'D'] ++ [' ']) := rfl
      rw [h_text]
      exact (lexes_of_run rfl).closes.space
  | or =>
      refine ⟨⟨' ', ['O', 'R', ' '], rfl, Or.inl rfl⟩, ?_⟩
      have h_text : Connective.or.separator.toList = ' ' :: (['O', 'R'] ++ [' ']) := rfl
      rw [h_text]
      exact (lexes_of_run rfl).closes.space

theorem Outline.lexes_sqls {os : List Outline} {sss : List (List Slot)}
    (h : List.Forall₂ Outline.Writes os sss) (style : MarkerStyle) (bound : Nat) :
    List.Forall₂ (fun s ts => Lexes s.toList ts) (Outline.sqls style bound os)
      (Slot.tokenLists style bound sss) := by
  induction h generalizing bound with
  | nil => exact .nil
  | cons h_first h_rest ih =>
      rw [Outline.sqls, Slot.tokenLists, h_first.values]
      exact .cons (h_first.lexes style bound) (ih _)

theorem Outline.flatMap_values {os : List Outline} {sss : List (List Slot)}
    (h : List.Forall₂ Outline.Writes os sss) :
    sss.flatMap Slot.values = os.flatMap Outline.values := by
  induction h with
  | nil => rfl
  | cons h_first h_rest ih => rw [List.flatMap_cons, List.flatMap_cons, h_first.values, ih]

/-- Outlines with a separator between them. -/
theorem Outline.writes_joined {separator : String} {l : Lexeme}
    (h_separator : Divides separator (.lexeme l)) {os : List Outline} {sss : List (List Slot)}
    (h : List.Forall₂ Outline.Writes os sss) :
    Slot.values ([.lexeme l].intercalate sss) = (Outline.joined separator os).values ∧
      ∀ style bound, Lexes ((Outline.joined separator os).sql style bound).toList
        (Slot.tokens style bound ([.lexeme l].intercalate sss)) := by
  constructor
  · rw [Slot.values_intercalate, Outline.values_joined]
    exact Outline.flatMap_values h
  · intro style bound
    rw [Outline.sql_joined, Slot.tokens_intercalate]
    exact lexes_intercalate h_separator (Outline.lexes_sqls h style bound)

/-- A text that opens a list or a group, what is in it, and the text that closes it. -/
theorem Outline.writes_parenthesized {lead : String} (leadSlots : List Slot) {ss : List Slot}
    {o : Outline}
    (h_lead : lead ≠ "") (h_leadValues : Slot.values leadSlots = [])
    (h_leadCloses : ∀ style bound,
      Closes lead.toList (Slot.tokens style bound leadSlots))
    (h_values : Slot.values ss = o.values)
    (h_lexes : ∀ style bound, Lexes (o.sql style bound).toList (Slot.tokens style bound ss)) :
    Outline.Writes (.text lead :: (o ++ [.text " )"])) (leadSlots ++ (ss ++ [.symbol ")"])) := by
  refine ⟨?_, ?_, ?_⟩
  · rw [Slot.values_append, Slot.values_append, h_leadValues, h_values, Outline.values,
      Outline.values_append]
    rfl
  · have h_blank : Outline.isBlank (.text lead :: (o ++ [.text " )"])) = false := by
      rw [Outline.isBlank, Bool.and_eq_false_iff]
      exact Or.inl (by simpa using h_lead)
    have h_empty : (leadSlots ++ (ss ++ [Slot.symbol ")"])).isEmpty = false := by simp
    rw [h_blank, h_empty]
  · intro style bound
    have h_close : Lexes (" )" : String).toList [.lexeme (.symbol ")")] := by
      have h_text : (" )" : String).toList = ' ' :: [')'] := rfl
      rw [h_text]
      exact (closes_of_start rfl).space.lexes
    -- The space in front of the closing parenthesis ends what is inside.
    have h_separated : Separated (" )" : String).toList := separated_cons (Or.inl rfl) [')']
    have h_inner := (h_lexes style bound).append h_close h_separated
    have h_text : (Outline.sql style bound (.text lead :: (o ++ [.text " )"]))).toList
        = lead.toList ++ ((o.sql style bound).toList ++ (" )" : String).toList) := by
      rw [Outline.sql, Outline.sql_append, Outline.sql_text, String.toList_append,
        String.toList_append]
    have h_tokens : Slot.tokens style bound (leadSlots ++ (ss ++ [.symbol ")"]))
        = Slot.tokens style bound leadSlots
          ++ (Slot.tokens style bound ss ++ [.lexeme (.symbol ")")]) := by
      rw [Slot.tokens_append, Slot.tokens_append, h_leadValues]
      rfl
    rw [h_text, h_tokens]
    exact (h_leadCloses style bound).append h_inner

theorem Connective.writes_outline (connective : Connective) {os : List Outline}
    {sss : List (List Slot)} (h : List.Forall₂ Outline.Writes os sss) :
    (connective.outline os).Writes (connective.slots sss) := by
  -- A part is left out on one side if it is left out on the other.
  have h_kept : List.Forall₂ Outline.Writes (os.filter (!Outline.isBlank ·))
      (sss.filter (!·.isEmpty)) := by
    refine List.rel_filter ?_ h
    intro o ss h_writes
    show (!o.isBlank) = true ↔ (!ss.isEmpty) = true
    rw [h_writes.blank]
  rw [Connective.outline, Connective.slots]
  revert h_kept
  generalize os.filter (!Outline.isBlank ·) = kept
  generalize sss.filter (!·.isEmpty) = keptSlots
  intro h_kept
  cases h_kept with
  | nil => exact ⟨rfl, rfl, fun _ _ => lexes_nil⟩
  | cons h_first h_rest =>
      obtain ⟨h_values, h_lexes⟩ :=
        Outline.writes_joined connective.divides_separator (.cons h_first h_rest)
      refine Outline.writes_parenthesized [.symbol "("] (by decide) rfl ?_
        h_values h_lexes
      -- The opening parenthesis, closed by the space behind it.
      intro style bound
      have h_text : ("( " : String).toList = ['('] ++ [' '] := rfl
      rw [h_text]
      exact (closes_of_start rfl).lexes.closes

theorem Outline.writes_filtered {o : Outline} {ss : List Slot} (h : o.Writes ss) :
    o.filtered.Writes (Slot.filtered ss) := by
  rw [Outline.filtered, Slot.filtered, h.blank]
  cases h_empty : ss.isEmpty with
  | true => exact ⟨rfl, rfl, fun _ _ => lexes_nil⟩
  | false =>
      refine ⟨h.values, rfl, ?_⟩
      intro style bound
      have h_where : Closes ("WHERE " : String).toList [.lexeme (.word "WHERE")] := by
        have h_text : ("WHERE " : String).toList = ['W', 'H', 'E', 'R', 'E'] ++ [' '] := rfl
        rw [h_text]
        exact (lexes_of_run rfl).closes
      show Lexes ("WHERE " ++ o.sql style bound).toList _
      rw [String.toList_append]
      exact h_where.append (h.lexes style bound)

/-- A comparison, after the slots of its head. -/
theorem Operand.writes_outline {head : String} {headSlots : List Slot} (h_head : head ≠ "")
    (h_headValues : Slot.values headSlots = [])
    (h_headLexes : ∀ style bound,
      Lexes head.toList (Slot.tokens style bound headSlots)) (operand : Operand) :
    (operand.outline head).Writes (headSlots ++ operand.slots) := by
  -- Head and opening parenthesis of a list.
  have h_open : ∀ style bound, Closes (head ++ " ( ").toList
      (Slot.tokens style bound (headSlots ++ [.symbol "("])) := by
    intro style bound
    have h_text : (head ++ " ( ").toList = head.toList ++ ' ' :: ['('] ++ [' '] := by simp
    have h_tokens : Slot.tokens style bound (headSlots ++ [.symbol "("])
        = Slot.tokens style bound headSlots ++ [.lexeme (.symbol "(")] := by
      rw [Slot.tokens_append]
      rfl
    rw [h_text, h_tokens]
    exact ((h_headLexes style bound).append_space (closes_of_start rfl).lexes).closes
  have h_openValues : Slot.values (headSlots ++ [.symbol "("]) = [] := by
    rw [Slot.values_append, h_headValues]
    rfl
  have h_openText : head ++ " ( " ≠ "" := by
    intro h
    exact h_head (String.append_eq_empty_iff.mp h).1
  cases operand with
  | value v =>
      refine ⟨?_, ?_, ?_⟩
      · rw [Slot.values_append, h_headValues]
        rfl
      · have h_empty : (headSlots ++ (Operand.value v).slots).isEmpty = false := by
          simp [Operand.slots]
        rw [h_empty, Operand.isBlank_outline]
      · intro style bound
        have h_text : (((Operand.value v).outline head).sql style bound).toList
            = head.toList ++ ' ' :: (style.marker (bound + 1)).toList := by
          rw [Operand.outline, Outline.sql, Outline.sql_value]
          simp
        rw [h_text, Slot.tokens_append, h_headValues]
        exact (h_headLexes style bound).append_space (lexes_marker style (bound + 1))
  | list vs =>
      cases vs with
      | nil =>
          have h_null : Lexes ("( NULL )" : String).toList
              [.lexeme (.symbol "("), .lexeme (.word "NULL"), .lexeme (.symbol ")")] :=
            lexes_of_run (by decide)
          refine ⟨?_, ?_, ?_⟩
          · rw [Slot.values_append, h_headValues]
            rfl
          · have h_empty : (headSlots ++ (Operand.list []).slots).isEmpty = false := by
              simp [Operand.slots]
            rw [h_empty, Operand.isBlank_outline]
          · intro style bound
            have h_text : (((Operand.list []).outline head).sql style bound).toList
                = head.toList ++ ' ' :: ("( NULL )" : String).toList := by
              rw [Operand.outline, Outline.sql_text]
              simp
            rw [h_text, Slot.tokens_append, h_headValues]
            exact (h_headLexes style bound).append_space h_null
      | cons v vs =>
          -- Each item is one marker, numbered by its place.
          have h_items : List.Forall₂ Outline.Writes ((v :: vs).map ([.value ·]))
              ((v :: vs).map ([.value ·])) := by
            rw [List.forall₂_map_left_iff, List.forall₂_map_right_iff, List.forall₂_same]
            intro w _
            refine ⟨rfl, rfl, ?_⟩
            intro style bound
            rw [Outline.sql_value]
            exact lexes_marker style (bound + 1)
          obtain ⟨h_values, h_lexes⟩ := Outline.writes_joined divides_comma h_items
          have h_list := Outline.writes_parenthesized _ h_openText h_openValues h_open
            h_values h_lexes
          rw [List.append_assoc] at h_list
          exact h_list

end Writes

end SqlCompose
