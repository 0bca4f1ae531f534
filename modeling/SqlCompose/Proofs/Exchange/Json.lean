/-
  SqlCompose.Proofs.Exchange.Json

  JSON conditions with other scalars in them. `Json.shape` puts null in the place of
  every scalar, so data of one shape differs in its scalars only. Two conditions as
  JSON are exchanged for each other if their operands have one shape and all else is
  the same: the head of a pair, the keys of an object.

  What is exchanged for data that can be read can be read (`Json.Exchanged.read`), and
  its outline differs in the values only (`Document.alike_outlines`).
-/
import SqlCompose.Proofs.Document
import SqlCompose.Proofs.Outline.Erase

namespace SqlCompose

namespace Json

/-! ## Shapes -/

mutual

/-- The data with null for every scalar. -/
def shape : Json → Json
  | .array items => .array (shapes items)
  | .object members => .object (memberShapes members)
  | .null | .bool _ | .number _ | .string _ => .null

def shapes : List Json → List Json
  | [] => []
  | j :: rest => j.shape :: shapes rest

def memberShapes : List (String × Json) → List (String × Json)
  | [] => []
  | (key, j) :: rest => (key, j.shape) :: memberShapes rest

end

theorem isScalar_iff_shape (j : Json) : j.isScalar = true ↔ j.shape = .null := by
  cases j with
  | null | bool _ | number _ | string _ => simp [isScalar, shape]
  | array items => simp [isScalar, shape]
  | object members => simp [isScalar, shape]

/-- Data of one shape is scalar in the same places. -/
theorem isScalar_eq_of_shape {j k : Json} (h : j.shape = k.shape) : j.isScalar = k.isScalar := by
  rw [Bool.eq_iff_iff, isScalar_iff_shape, isScalar_iff_shape, h]

theorem forall₂_of_shapes {items others : List Json} (h : shapes items = shapes others) :
    List.Forall₂ (fun j k => j.shape = k.shape) items others := by
  induction items generalizing others with
  | nil =>
      cases others with
      | nil => exact .nil
      | cons k others => simp [shapes] at h
  | cons j items ih =>
      cases others with
      | nil => simp [shapes] at h
      | cons k others =>
          rw [shapes, shapes, List.cons.injEq] at h
          exact .cons h.1 (ih h.2)

theorem forall₂_of_memberShapes {members others : List (String × Json)}
    (h : memberShapes members = memberShapes others) :
    List.Forall₂ (fun m n => m.1 = n.1 ∧ m.2.shape = n.2.shape) members others := by
  induction members generalizing others with
  | nil =>
      cases others with
      | nil => exact .nil
      | cons n others => simp [memberShapes] at h
  | cons m members ih =>
      obtain ⟨key, j⟩ := m
      cases others with
      | nil => simp [memberShapes] at h
      | cons n others =>
          obtain ⟨other, k⟩ := n
          rw [memberShapes, memberShapes, List.cons.injEq, Prod.mk.injEq] at h
          exact .cons h.1 (ih h.2)

theorem isOperand_eq_of_shape {j k : Json} (h : j.shape = k.shape) :
    j.isOperand = k.isOperand := by
  cases j with
  | array items =>
      cases k with
      | array others =>
          rw [shape, shape, array.injEq] at h
          rw [isOperand, isOperand]
          induction forall₂_of_shapes h with
          | nil => rfl
          | cons h_first h_rest ih =>
              rw [shapes, shapes, List.cons.injEq] at h
              rw [List.all_cons, List.all_cons, isScalar_eq_of_shape h_first, ih h.2]
      | null | bool _ | number _ | string _ | object _ => simp [shape] at h
  | null | bool _ | number _ | string _ | object _ =>
      cases k with
      | array others => simp [shape] at h
      | null | bool _ | number _ | string _ | object _ => rfl

/-- Conditions as JSON that differ in the scalars of their operands only. -/
inductive Exchanged : Json → Json → Prop where
  | pair (head : String) {operand other : Json} (h : operand.shape = other.shape) :
      Exchanged (.array [.string head, operand]) (.array [.string head, other])
  | object {members others : List (String × Json)}
      (h : memberShapes members = memberShapes others) :
      Exchanged (.object members) (.object others)

theorem Exchanged.isObject_eq {j k : Json} (h : Exchanged j k) : j.isObject = k.isObject := by
  cases h with
  | pair head h => rfl
  | object h => rfl

end Json

/-! ## Reading -/

namespace Condition

/-- Members of the same keys and shapes can be read as well. -/
theorem isEntry_of_shapes {members others : List (String × Json)}
    (h : List.Forall₂ (fun m n => m.1 = n.1 ∧ m.2.shape = n.2.shape) members others)
    (h_entry : ∀ member ∈ members, IsEntry member) : ∀ other ∈ others, IsEntry other := by
  induction h with
  | nil => exact fun other h_other => absurd h_other List.not_mem_nil
  | @cons first second members others h_first h_rest ih =>
      rw [List.forall_mem_cons] at h_entry ⊢
      obtain ⟨⟨h_parse, h_isScalar⟩, h_members⟩ := h_entry
      rw [Json.isScalar_eq_of_shape h_first.2] at h_isScalar
      exact ⟨⟨h_first.1 ▸ h_parse, h_isScalar⟩, ih h_members⟩

end Condition

/-- What is exchanged for data that can be read can be read. -/
theorem Json.Exchanged.read {j k : Json} (h : Json.Exchanged j k) {condition : Condition}
    (h_read : Condition.read j = .ok condition) : ∃ other, Condition.read k = .ok other := by
  cases h with
  | @pair head operand other h =>
      obtain ⟨text, bindings, h_head, h_operand, -⟩ := Condition.read_pair_eq_ok_iff.mp h_read
      have h_isOperand := Condition.exists_readOperand_iff.mp ⟨bindings, h_operand⟩
      rw [Json.isOperand_eq_of_shape h] at h_isOperand
      obtain ⟨others, h_other⟩ := Condition.exists_readOperand_iff.mpr h_isOperand
      exact ⟨_, Condition.read_pair_eq_ok_iff.mpr ⟨text, others, h_head, h_other, rfl⟩⟩
  | @object members others h =>
      have h_entry := (Condition.read_object_eq_ok_iff.mp h_read).1
      have h_others := Condition.isEntry_of_shapes (Json.forall₂_of_memberShapes h) h_entry
      exact ⟨_, Condition.read_object_eq_ok_iff.mpr ⟨h_others, rfl⟩⟩

/-! ## Comparisons -/

structure Comparison.Exchanged (q r : Comparison) : Prop where
  column : q.column = r.column
  operator : q.operator = r.operator
  operand : q.operand.shape = r.operand.shape

theorem Comparison.Exchanged.alike_outline {q r : Comparison} (h : q.Exchanged r) :
    Outline.Alike q.outline r.outline := by
  obtain ⟨column, operator, operand⟩ := q
  obtain ⟨column', operator', other⟩ := r
  obtain ⟨h_column, h_operator, h_operand⟩ := h
  simp only at h_column h_operator h_operand
  subst h_column h_operator
  cases operand with
  | array items =>
      cases other with
      | array others =>
          rw [Json.shape, Json.shape, Json.array.injEq] at h_operand
          have h_length := (Json.forall₂_of_shapes h_operand).length_eq
          exact Outline.alike_list _ (by rw [List.length_map, List.length_map, h_length])
      | null | bool _ | number _ | string _ | object _ => simp [Json.shape] at h_operand
  | null | bool _ | number _ | string _ | object _ =>
      cases other with
      | array others => simp [Json.shape] at h_operand
      | null | bool _ | number _ | string _ | object _ => rfl

theorem Comparison.Exchanged.bound {q r : Comparison} (h : q.Exchanged r) :
    List.Forall₂ (fun j k => j.shape = k.shape) q.bound r.bound := by
  have h_operand := h.operand
  rw [Comparison.bound, Comparison.bound]
  cases h_q : q.operand with
  | array items =>
      cases h_r : r.operand with
      | array others =>
          rw [h_q, h_r, Json.shape, Json.shape, Json.array.injEq] at h_operand
          exact Json.forall₂_of_shapes h_operand
      | null | bool _ | number _ | string _ | object _ => simp [h_q, h_r, Json.shape] at h_operand
  | null | bool _ | number _ | string _ | object _ =>
      cases h_r : r.operand with
      | array others => simp [h_q, h_r, Json.shape] at h_operand
      | null | bool _ | number _ | string _ | object _ =>
          rw [h_q, h_r] at h_operand
          exact .cons h_operand .nil

theorem Json.Exchanged.comparisons {j k : Json} (h : Json.Exchanged j k) :
    List.Forall₂ Comparison.Exchanged j.comparisons k.comparisons := by
  cases h with
  | @pair head operand other h =>
      rw [Json.comparisons, Json.comparisons]
      cases Json.headOf? head with
      | none => exact .nil
      | some found => exact .cons ⟨rfl, rfl, h⟩ .nil
  | @object members others h =>
      -- The keys are the same, so the same members have a column.
      rw [Json.comparisons, Json.comparisons]
      have h_members := Json.forall₂_of_memberShapes h
      clear h
      induction h_members with
      | nil => exact .nil
      | @cons first second members others h_first h_rest ih =>
          obtain ⟨key, j⟩ := first
          obtain ⟨other, k⟩ := second
          obtain ⟨h_key, h_shape⟩ := h_first
          simp only at h_key h_shape
          subst h_key
          cases h_parse : Identifier.parse key with
          | error cause =>
              rw [List.filterMap_cons_none (by simp [Json.memberComparison?, h_parse]),
                List.filterMap_cons_none (by simp [Json.memberComparison?, h_parse])]
              exact ih
          | ok i =>
              have h_some (l : Json) : Json.memberComparison? (key, l) = some ⟨i, "=", l⟩ :=
                Condition.memberComparison_of_parse h_parse
              rw [List.filterMap_cons_some (h_some j), List.filterMap_cons_some (h_some k)]
              exact .cons ⟨rfl, rfl, h_shape⟩ ih

/-! ## Documents -/

namespace Document

theorem alike_outlines {d e : Document} (h : d.json.Exchanged e.json) :
    Role.Related Outline.Alike d.outlines e.outlines := by
  refine related_role h.isObject_eq ?_ ?_
  · exact h.comparisons.imp fun _ _ h_q => h_q.alike_outline
  · exact fun _ _ h_group => Outline.alike_outline .and h_group

theorem forall₂_bound {d e : Document} (h : d.json.Exchanged e.json) :
    List.Forall₂ (fun j k => j.shape = k.shape) d.bound e.bound :=
  List.rel_flatMap h.comparisons fun _ _ h_q => h_q.bound

end Document

end SqlCompose
