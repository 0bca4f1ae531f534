/-
  SqlCompose.Proofs.Outline.Erase

  Outlines without their values. `Outline.erase` puts NULL in the place of every
  value and keeps the texts. It does not change the text of an outline
  (`sql_erase`), and everything that builds outlines from outlines commutes with it,
  so outlines that are alike up to their values stay so in groups and clauses.
-/
import Mathlib.Data.List.Forall2
import SqlCompose.Proofs.Outline.Render

namespace SqlCompose

/-- The piece with NULL for its value. -/
def Piece.erase : Piece → Piece
  | .text s => .text s
  | .value _ => .value .null

namespace Outline

/-- The outline with NULL for every value. -/
def erase (o : Outline) : Outline := o.map Piece.erase

/-- Outlines that differ in their values only. -/
def Alike (a b : Outline) : Prop := a.erase = b.erase

theorem erase_append (a b : Outline) : erase (a ++ b) = erase a ++ erase b := List.map_append

/-! ## What does not depend on values -/

theorem sql_erase (style : MarkerStyle) (bound : Nat) (o : Outline) :
    o.erase.sql style bound = o.sql style bound := by
  induction o generalizing bound with
  | nil => rfl
  | cons p o ih =>
      cases p with
      | text s =>
          show s ++ sql style bound (erase o) = s ++ sql style bound o
          rw [ih]
      | value v =>
          show style.marker (bound + 1) ++ sql style (bound + 1) (erase o)
            = style.marker (bound + 1) ++ sql style (bound + 1) o
          rw [ih]

theorem isBlank_erase (o : Outline) : o.erase.isBlank = o.isBlank := by
  induction o with
  | nil => rfl
  | cons p o ih =>
      cases p with
      | text s =>
          show (s.isEmpty && isBlank (erase o)) = (s.isEmpty && isBlank o)
          rw [ih]
      | value v => rfl

theorem Alike.sql_eq {a b : Outline} (h : Alike a b) (style : MarkerStyle) (bound : Nat) :
    a.sql style bound = b.sql style bound := by
  rw [← sql_erase, h, sql_erase]

/-! ## Groups and clauses -/

theorem erase_joined (separator : String) (os : List Outline) :
    (joined separator os).erase = joined separator (os.map erase) := by
  induction os with
  | nil => rfl
  | cons o os ih =>
      cases os with
      | nil => rfl
      | cons next os =>
          have h_rest : erase (.text separator :: joined separator (next :: os))
              = .text separator :: joined separator ((next :: os).map erase) := by
            rw [← ih]
            rfl
          rw [joined, erase_append, h_rest]
          rfl

theorem erase_outline (connective : Connective) (os : List Outline) :
    (connective.outline os).erase = connective.outline (os.map erase) := by
  -- Which parts are left out does not depend on values.
  have h_kept : (os.map erase).filter (!isBlank ·) = (os.filter (!isBlank ·)).map erase := by
    rw [List.filter_map]
    congr 2
    funext o
    show (!isBlank (erase o)) = !isBlank o
    rw [isBlank_erase]
  rw [Connective.outline, Connective.outline, h_kept]
  cases os.filter (!isBlank ·) with
  | nil => rfl
  | cons o os =>
      show erase (.text "( " :: (joined connective.separator (o :: os) ++ [.text " )"]))
        = .text "( " :: (joined connective.separator ((o :: os).map erase) ++ [.text " )"])
      rw [← erase_joined]
      exact congrArg _ (erase_append _ _)

theorem erase_filtered (o : Outline) : o.filtered.erase = o.erase.filtered := by
  rw [filtered, filtered, isBlank_erase]
  cases o.isBlank with
  | true => rfl
  | false => rfl

theorem map_erase_of_alike {os ps : List Outline} (h : List.Forall₂ Alike os ps) :
    os.map erase = ps.map erase := by
  rw [← List.forall₂_eq_eq_eq, List.forall₂_map_left_iff, List.forall₂_map_right_iff]
  exact h

theorem alike_outline (connective : Connective) {os ps : List Outline}
    (h : List.Forall₂ Alike os ps) : Alike (connective.outline os) (connective.outline ps) := by
  rw [Alike, erase_outline, erase_outline, map_erase_of_alike h]

theorem alike_filtered {o p : Outline} (h : Alike o p) : Alike o.filtered p.filtered := by
  rw [Alike, erase_filtered, erase_filtered, h]

theorem alike_joined_values (separator : String) {vs ws : List Value}
    (h : vs.length = ws.length) :
    Alike (joined separator (vs.map ([.value ·]))) (joined separator (ws.map ([.value ·]))) := by
  have h_erased : ∀ us : List Value,
      (us.map ([Piece.value ·])).map erase = List.replicate us.length [Piece.value .null] := by
    intro us
    rw [List.map_map, ← List.map_const']
    rfl
  rw [Alike, erase_joined, erase_joined, h_erased, h_erased, h]

theorem alike_list (head : String) {vs ws : List Value} (h : vs.length = ws.length) :
    Alike ((Operand.list vs).outline head) ((Operand.list ws).outline head) := by
  cases vs with
  | nil =>
      have h_nil : ws = [] := List.length_eq_zero_iff.mp h.symm
      rw [h_nil]
      rfl
  | cons v vs =>
      cases ws with
      | nil => simp at h
      | cons w ws =>
          have h_items := alike_joined_values ", " h
          rw [Alike] at h_items
          rw [Operand.outline_cons, Operand.outline_cons]
          show Piece.text (head ++ " ( ") :: erase (_ ++ _) = Piece.text (head ++ " ( ") :: erase (_ ++ _)
          rw [erase_append, erase_append, h_items]

end Outline

end SqlCompose
