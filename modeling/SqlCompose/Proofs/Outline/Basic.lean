/-
  SqlCompose.Proofs.Outline.Basic

  Outlines: a text with holes. An outline is a list of pieces, each a text or a
  value, and it says everything about what a fragment writes and binds, on every
  collector and in both styles of markers at once:

    * `Outline.sql style n o`  -- its text, if `n` values were bound before it;
    * `Outline.values o`       -- what it binds, in order.

  The two are homomorphisms: `sql_append` numbers the second outline after the
  values of the first one, `values_append` puts the values one after the other.
  `isEmpty_sql` is what makes outlines useful for conditions that drop out: whether
  a text is empty can be told from the outline alone, and a blank outline binds
  nothing (`values_of_isBlank`).
-/
import SqlCompose.Collector
import SqlCompose.Proofs.Marker

namespace SqlCompose

/-- A piece of an outline. -/
inductive Piece where
  /-- Text, written as it is. -/
  | text (sql : String)
  /-- A value, for which its marker is written. -/
  | value (v : Value)

/-- Texts and values in turn. -/
abbrev Outline := List Piece

namespace Outline

/-- The values of an outline, in order. -/
def values : Outline → List Value
  | [] => []
  | .text _ :: o => values o
  | .value v :: o => v :: values o

/-- The text of an outline before which `bound` values were bound. -/
def sql (style : MarkerStyle) (bound : Nat) : Outline → String
  | [] => ""
  | .text s :: o => s ++ sql style bound o
  | .value _ :: o => style.marker (bound + 1) ++ sql style (bound + 1) o

/-- Whether the text of an outline is empty. -/
def isBlank : Outline → Bool
  | [] => true
  | .text s :: o => s.isEmpty && isBlank o
  | .value _ :: _ => false

/-- The texts of outlines that stand one after the other. -/
def sqls (style : MarkerStyle) (bound : Nat) : List Outline → List String
  | [] => []
  | o :: os => sql style bound o :: sqls style (bound + (values o).length) os

/-- The outlines one after the other, with a text between any two. -/
def joined (separator : String) : List Outline → Outline
  | [] => []
  | [o] => o
  | o :: next :: os => o ++ .text separator :: joined separator (next :: os)

/-! ## Values -/

theorem values_append (a b : Outline) : values (a ++ b) = values a ++ values b := by
  induction a with
  | nil => rfl
  | cons p a ih =>
      cases p with
      | text s => exact ih
      | value v =>
          rw [List.cons_append, values, values, ih]
          rfl

theorem values_joined (separator : String) (os : List Outline) :
    values (joined separator os) = os.flatMap values := by
  induction os with
  | nil => rfl
  | cons o os ih =>
      cases os with
      | nil => simp [joined]
      | cons next os =>
          rw [joined, values_append, values, ih]
          rfl

/-! ## Text -/

theorem sql_text (style : MarkerStyle) (bound : Nat) (s : String) :
    sql style bound [.text s] = s := by
  rw [sql, sql, String.append_empty]

theorem sql_value (style : MarkerStyle) (bound : Nat) (v : Value) :
    sql style bound [.value v] = style.marker (bound + 1) := by
  rw [sql, sql, String.append_empty]

theorem sql_append (style : MarkerStyle) (bound : Nat) (a b : Outline) :
    sql style bound (a ++ b)
      = sql style bound a ++ sql style (bound + (values a).length) b := by
  induction a generalizing bound with
  | nil =>
      rw [List.nil_append, sql, String.empty_append]
      rfl
  | cons p a ih =>
      cases p with
      | text s =>
          rw [List.cons_append, sql, sql, ih, String.append_assoc]
          rfl
      | value v =>
          have h_count : bound + 1 + (values a).length
              = bound + (values (.value v :: a)).length := by
            rw [values, List.length_cons]
            omega
          rw [List.cons_append, sql, sql, ih, String.append_assoc, h_count]

theorem sqls_append (style : MarkerStyle) (bound : Nat) (os ps : List Outline) :
    sqls style bound (os ++ ps)
      = sqls style bound os ++ sqls style (bound + (os.flatMap values).length) ps := by
  induction os generalizing bound with
  | nil => rfl
  | cons o os ih =>
      have h_count : bound + (values o).length + (os.flatMap values).length
          = bound + ((o :: os).flatMap values).length := by
        rw [List.flatMap_cons, List.length_append]
        omega
      rw [List.cons_append, sqls, sqls, ih, h_count]
      rfl

theorem length_sqls (style : MarkerStyle) (bound : Nat) (os : List Outline) :
    (sqls style bound os).length = os.length := by
  induction os generalizing bound with
  | nil => rfl
  | cons o os ih => rw [sqls, List.length_cons, ih, List.length_cons]

theorem sql_joined (style : MarkerStyle) (bound : Nat) (separator : String)
    (os : List Outline) :
    sql style bound (joined separator os)
      = separator.intercalate (sqls style bound os) := by
  induction os generalizing bound with
  | nil => rw [joined, sqls, sql, String.intercalate_nil]
  | cons o os ih =>
      cases os with
      | nil => rw [joined, sqls, sqls, String.intercalate_singleton]
      | cons next os =>
          -- The separator has no values, so the next outline is numbered after `o`.
          have h_rest := ih (bound + (values o).length)
          rw [sqls] at h_rest
          rw [joined, sql_append, sql, h_rest, sqls, sqls, String.intercalate_cons_cons,
            String.append_assoc]

/-! ## Emptiness -/

/-- A text is empty if its outline is blank, whatever was bound before. -/
theorem sql_eq_empty_iff (style : MarkerStyle) (bound : Nat) (o : Outline) :
    sql style bound o = "" ↔ isBlank o = true := by
  induction o with
  | nil => simp [sql, isBlank]
  | cons p o ih =>
      cases p with
      | text s =>
          rw [sql, isBlank, String.append_eq_empty_iff, Bool.and_eq_true, ih,
            String.isEmpty_iff]
      | value v =>
          -- A marker is never empty, in either style.
          have h_marker := style.marker_ne_empty (bound + 1)
          simp [sql, isBlank, String.append_eq_empty_iff, h_marker]

theorem isEmpty_sql (style : MarkerStyle) (bound : Nat) (o : Outline) :
    (sql style bound o).isEmpty = isBlank o := by
  rw [Bool.eq_iff_iff, String.isEmpty_iff]
  exact sql_eq_empty_iff style bound o

theorem values_of_isBlank {o : Outline} (h : isBlank o = true) : values o = [] := by
  induction o with
  | nil => rfl
  | cons p o ih =>
      cases p with
      | text s =>
          rw [isBlank, Bool.and_eq_true] at h
          exact ih h.2
      | value v => simp [isBlank] at h

/-- Leaving out the blank outlines leaves out no value. -/
theorem flatMap_values_filter (os : List Outline) :
    (os.filter (!isBlank ·)).flatMap values = os.flatMap values := by
  induction os with
  | nil => rfl
  | cons o os ih =>
      by_cases h : isBlank o = true
      · simp [h, ih, values_of_isBlank h]
      · simp [h, ih]

end Outline

end SqlCompose
