/-
  SqlCompose.Proofs.Scan.Outline

  Finding the markers in the text of an outline. `Outline.Scans style o` says that the
  tokens of the text of `o` are the markers of its values, in order, however many
  values were bound before.

  A text without the mark of the style can stand in front of any outline, and so can
  an outline in front of one that ends numbers, that is, whose text does not start
  with a digit (`Outline.Scans.append`). The texts that the library writes between two
  values all do: a comma, a space or a parenthesis comes first. Hence groups and
  clauses of outlines that scan do scan (`scans_outline`, `scans_filtered`).
-/
import SqlCompose.Proofs.Outline.Render
import SqlCompose.Proofs.Scan.Text

namespace SqlCompose

namespace Outline

/-- The tokens of the text are the markers of the values. -/
def Scans (style : MarkerStyle) (o : Outline) : Prop :=
  ∀ bound, style.tokens (o.sql style bound).toList
    = (List.range' (bound + 1) o.values.length).map style.marker

/-- The text does not start with a digit. -/
def EndsNumbers (style : MarkerStyle) (o : Outline) : Prop :=
  ∀ bound, EndsNumber (o.sql style bound).toList

variable {style : MarkerStyle}

/-! ## Pieces -/

theorem scans_nil : Scans style [] := by
  intro bound
  cases style with
  | positional => rfl
  | anonymous => rfl

theorem Scans.text {s : String} {o : Outline} (h : o.Scans style) (h_mark : style.mark ∉ s.toList) :
    Scans style (.text s :: o) := by
  intro bound
  rw [sql, String.toList_append, style.tokens_append_of_notMem h_mark, h bound, values]

theorem scans_text {s : String} (h_mark : style.mark ∉ s.toList) : Scans style [.text s] :=
  scans_nil.text h_mark

theorem scans_value (v : Value) : Scans style [.value v] := by
  intro bound
  rw [sql_value, style.tokens_marker]
  rfl

theorem Scans.append {o p : Outline} (ho : o.Scans style) (hp : p.Scans style)
    (h_ends : p.EndsNumbers style) : Scans style (o ++ p) := by
  intro bound
  have h_count : bound + 1 + o.values.length = bound + o.values.length + 1 := by omega
  rw [sql_append, String.toList_append, style.tokens_append (h_ends _), ho, hp, ← List.map_append,
    ← h_count, values_append, List.length_append]
  congr 1
  exact List.range'_append_1

theorem endsNumbers_nil : EndsNumbers style [] := fun _ => endsNumber_nil

theorem EndsNumbers.append {o p : Outline} (ho : o.EndsNumbers style)
    (hp : p.EndsNumbers style) : EndsNumbers style (o ++ p) := by
  intro bound
  rw [sql_append, String.toList_append]
  exact (ho _).append (hp _)

theorem EndsNumbers.text {s : String} {o : Outline} (h : o.EndsNumbers style)
    (h_text : EndsNumber s.toList) : EndsNumbers style (.text s :: o) := by
  intro bound
  rw [sql, String.toList_append]
  exact h_text.append (h bound)

/-- What the first character of the first text decides. -/
theorem endsNumbers_text {s : String} {c : Char} (o : Outline) (h : s.toList.head? = some c)
    (h_digit : c.isDigit = false) : EndsNumbers style (.text s :: o) := by
  intro bound
  rw [sql, String.toList_append]
  cases h_chars : s.toList with
  | nil => simp [h_chars] at h
  | cons d ds =>
      rw [h_chars, List.head?_cons, Option.some.injEq] at h
      rw [List.cons_append]
      exact endsNumber_cons _ (h ▸ h_digit)

/-! ## Parts in a row -/

/-- A text that can stand behind any outline: it holds no mark, and its first character
    is no digit. -/
structure Delimits (style : MarkerStyle) (s : String) : Prop where
  mark : style.mark ∉ s.toList
  first : ∃ c, s.toList.head? = some c ∧ c.isDigit = false

theorem delimits_comma (style : MarkerStyle) : Delimits style ", " :=
  ⟨style.mark_notMem (by decide), ',', rfl, by decide⟩

theorem delimits_separator (style : MarkerStyle) (connective : Connective) :
    Delimits style connective.separator := by
  cases connective with
  | and => exact ⟨style.mark_notMem (by decide), ' ', rfl, by decide⟩
  | or => exact ⟨style.mark_notMem (by decide), ' ', rfl, by decide⟩

theorem delimits_close (style : MarkerStyle) : Delimits style " )" :=
  ⟨style.mark_notMem (by decide), ' ', rfl, by decide⟩

theorem delimits_parenthesis (style : MarkerStyle) : Delimits style ")" :=
  ⟨style.mark_notMem (by decide), ')', rfl, by decide⟩

/-- What closes a group, a list or a row stands behind it. -/
theorem Scans.close {o : Outline} (h : o.Scans style) {s : String} (h_text : Delimits style s) :
    Scans style (o ++ [.text s]) := by
  obtain ⟨c, h_head, h_digit⟩ := h_text.first
  exact h.append (scans_text h_text.mark) (endsNumbers_text _ h_head h_digit)

theorem scans_joined {separator : String} (h : Delimits style separator) {os : List Outline}
    (h_parts : ∀ o ∈ os, o.Scans style) : Scans style (joined separator os) := by
  induction os with
  | nil => exact scans_nil
  | cons o os ih =>
      have h_first := h_parts o List.mem_cons_self
      have h_rest := ih fun p h_p => h_parts p (List.mem_cons_of_mem o h_p)
      cases os with
      | nil => exact h_first
      | cons next os =>
          obtain ⟨c, h_head, h_digit⟩ := h.first
          rw [joined]
          exact h_first.append (h_rest.text h.mark) (endsNumbers_text _ h_head h_digit)

theorem scans_values (vs : List Value) :
    Scans style (joined ", " (vs.map ([.value ·]))) := by
  apply scans_joined (delimits_comma style)
  intro o h_o
  obtain ⟨v, -, rfl⟩ := List.mem_map.mp h_o
  exact scans_value v

/-! ## Groups and clauses -/

theorem scans_outline (connective : Connective) {os : List Outline}
    (h : ∀ o ∈ os, o.Scans style) : Scans style (connective.outline os) := by
  have h_kept : ∀ o ∈ os.filter (!isBlank ·), o.Scans style :=
    fun o h_o => h o (List.mem_filter.mp h_o).1
  rw [Connective.outline]
  by_cases h_none : (os.filter (!isBlank ·)).isEmpty = true
  · rw [if_pos h_none]
    exact scans_nil
  · have h_open : style.mark ∉ "( ".toList := style.mark_notMem (by decide)
    have h_joined := scans_joined (delimits_separator style connective) h_kept
    rw [if_neg h_none]
    exact (h_joined.close (delimits_close style)).text h_open

theorem scans_filtered {o : Outline} (h : o.Scans style) : Scans style o.filtered := by
  rw [filtered]
  cases o.isBlank with
  | true => exact scans_nil
  | false =>
      have h_where : style.mark ∉ "WHERE ".toList := style.mark_notMem (by decide)
      exact h.text h_where

end Outline

end SqlCompose
