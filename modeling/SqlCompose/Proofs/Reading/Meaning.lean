/-
  SqlCompose.Proofs.Reading.Meaning

  Rendering keeps the boolean meaning of conditions. `Meaning` is what a tree of
  conditions says: the leaves that contribute a text, in order, and a truth value
  under every assignment to their occurrences, if there is one. A conjunction is true
  if all of its parts are that have a value, a disjunction if one of them is, and a
  column map is the conjunction of its entries.

  `Outline.Means o m` relates an outline to a meaning: its text is read as an
  expression with the leaves and the value of the meaning. Groups keep the relation
  (`Connective.means_outline`). Splicing a column map into a conjunction changes the
  tree that is written; it keeps the meaning because conjunction is associative
  (`Meaning.group_and_flatten`).
-/
import SqlCompose.Proofs.Plan
import SqlCompose.Proofs.Reading.Leaf

namespace SqlCompose

/-! ## Meanings -/

/-- The value of a group under the values of its parts; without parts, none. -/
def Connective.combine (connective : Connective) : List Bool → Option Bool
  | [] => none
  | b :: bs =>
    match connective with
    | .and => some (b && bs.all id)
    | .or => some (b || bs.any id)

/-- The leaves that contribute a text, and the value under an assignment to leaves of
    which some number stands in front. -/
structure Meaning where
  leaves : List Condition
  value : (Nat → Bool) → Nat → Option Bool

namespace Meaning

/-- What contributes nothing. -/
def none : Meaning := ⟨[], fun _ _ => .none⟩

/-- A leaf. -/
def leaf (condition : Condition) : Meaning := ⟨[condition], fun v k => some (v k)⟩

/-- The values of meanings one after the other. -/
def values (v : Nat → Bool) (k : Nat) : List Meaning → List (Option Bool)
  | [] => []
  | m :: ms => m.value v k :: values v (k + m.leaves.length) ms

/-- The conjunction or disjunction of meanings. -/
def group (connective : Connective) (ms : List Meaning) : Meaning :=
  ⟨ms.flatMap leaves, fun v k => connective.combine ((values v k ms).filterMap id)⟩

end Meaning

/-- The meaning of text or a comparison. -/
def Condition.leafMeaning : Condition → Meaning
  | .text sql => if sql = "" then .none else .leaf (.text sql)
  | .comparison head (some operand) => .leaf (.comparison head (some operand))
  | _ => .none

/-- The meaning of a leaf of a tree; a column map is the conjunction of its entries. -/
def Condition.meaning : Condition → Meaning
  | .columns m => .group .and (m.conditions.map leafMeaning)
  | condition => condition.leafMeaning

namespace Plan

mutual

/-- The meaning of a tree. -/
def meaning : Plan Condition → Meaning
  | .leaf condition => condition.meaning
  | .group connective plans => .group connective (meanings plans)
  | .filtered plans => .group .and (meanings plans)

/-- The meanings of trees in a row. -/
def meanings : List (Plan Condition) → List Meaning
  | [] => []
  | plan :: rest => meaning plan :: meanings rest

end

end Plan

/-! ## Conjunction is associative -/

namespace Connective

theorem combine_and_append_left (as bs : List Bool) :
    combine .and (as ++ bs) = combine .and ((combine .and as).toList ++ bs) := by
  cases as with
  | nil => rfl
  | cons a as =>
      show some (a && (as ++ bs).all id) = some ((a && as.all id) && bs.all id)
      rw [List.all_append, Bool.and_assoc]

theorem combine_and_append_right (as bs : List Bool) :
    combine .and (as ++ bs) = combine .and (as ++ (combine .and bs).toList) := by
  cases bs with
  | nil => rfl
  | cons b bs =>
      cases as with
      | nil =>
          show some (b && bs.all id) = some ((b && bs.all id) && true)
          rw [Bool.and_true]
      | cons a as =>
          show some (a && (as ++ b :: bs).all id) = some (a && (as ++ [b && bs.all id]).all id)
          rw [List.all_append, List.all_append, List.all_cons, List.all_cons, List.all_nil,
            Bool.and_true]
          rfl

end Connective

namespace Meaning

theorem values_append (v : Nat → Bool) (k : Nat) (ms ns : List Meaning) :
    values v k (ms ++ ns) = values v k ms ++ values v (k + (ms.flatMap leaves).length) ns := by
  induction ms generalizing k with
  | nil => rfl
  | cons m ms ih =>
      have h_count : k + m.leaves.length + (ms.flatMap leaves).length
          = k + ((m :: ms).flatMap leaves).length := by
        rw [List.flatMap_cons, List.length_append]
        omega
      rw [List.cons_append, values, ih, h_count]
      rfl

theorem filterMap_values_group (v : Nat → Bool) (k : Nat) (connective : Connective)
    (ms ns : List Meaning) :
    (values v k (group connective ms :: ns)).filterMap id
      = (connective.combine ((values v k ms).filterMap id)).toList
        ++ (values v (k + (ms.flatMap leaves).length) ns).filterMap id := by
  show (connective.combine ((values v k ms).filterMap id) :: _).filterMap id = _
  cases connective.combine ((values v k ms).filterMap id) with
  | none => rfl
  | some b => rfl

/-- A conjunction of conjunctions is the conjunction of all of their parts. -/
theorem group_and_flatten (mss : List (List Meaning)) :
    group .and mss.flatten = group .and (mss.map (group .and)) := by
  have h_value : ∀ (v : Nat → Bool) (k : Nat),
      Connective.combine .and ((values v k mss.flatten).filterMap id)
        = Connective.combine .and ((values v k (mss.map (group .and))).filterMap id) := by
    intro v k
    induction mss generalizing k with
    | nil => rfl
    | cons ms mss ih =>
        rw [List.flatten_cons, values_append, List.filterMap_append, List.map_cons,
          filterMap_values_group, Connective.combine_and_append_left,
          Connective.combine_and_append_right, ih, ← Connective.combine_and_append_right]
  have h_leaves : mss.flatten.flatMap leaves = (mss.map (group .and)).flatMap leaves := by
    clear h_value
    induction mss with
    | nil => rfl
    | cons ms mss ih =>
        rw [List.flatten_cons, List.flatMap_append, ih]
        rfl
  rw [group, group, h_leaves]
  congr 1
  funext v k
  exact h_value v k

/-- A conjunction of one is that one. -/
theorem group_and_singleton (m : Meaning) : group .and [m] = m := by
  have h_leaves : [m].flatMap leaves = m.leaves := List.flatMap_singleton leaves m
  have h_value : (fun v k => Connective.combine .and ((values v k [m]).filterMap id)) = m.value := by
    funext v k
    rw [values, values]
    cases m.value v k with
    | none => rfl
    | some b => exact congrArg some (Bool.and_true b)
  rw [group, h_leaves, h_value]

end Meaning

/-! ## Expressions of groups -/

namespace Expression

/-- The values of expressions one after the other. -/
def values (v : Nat → Bool) (k : Nat) : List Expression → List Bool
  | [] => []
  | e :: es => e.value v k :: values v (k + e.leaves.length) es

theorem leavesAll_eq_flatMap (es : List Expression) : leavesAll es = es.flatMap leaves := by
  induction es with
  | nil => rfl
  | cons e es ih => rw [leavesAll, ih, List.flatMap_cons]

theorem leaves_group (connective : Connective) (es : List Expression) :
    (group (Reader.alternatives connective es)).leaves = es.flatMap leaves := by
  rw [leaves]
  cases connective with
  | and =>
      rw [Reader.alternatives, leavesAny, leavesAny, List.append_nil, leavesAll_eq_flatMap]
  | or =>
      rw [Reader.alternatives]
      induction es with
      | nil => rfl
      | cons e es ih =>
          rw [List.map_cons, leavesAny, ih, leavesAll_eq_flatMap, List.flatMap_singleton,
            List.flatMap_cons]

theorem valueAll_eq (v : Nat → Bool) (k : Nat) (es : List Expression) :
    valueAll v k es = (values v k es).all id := by
  induction es generalizing k with
  | nil => rfl
  | cons e es ih =>
      rw [valueAll, ih]
      rfl

theorem valueAny_singletons (v : Nat → Bool) (k : Nat) (es : List Expression) :
    valueAny v k (es.map ([·])) = (values v k es).any id := by
  induction es generalizing k with
  | nil => rfl
  | cons e es ih =>
      rw [List.map_cons, valueAny, valueAll, valueAll, Bool.and_true, leavesAll, leavesAll,
        List.append_nil, ih]
      rfl

/-- The value of a group that is read combines those of its operands. -/
theorem value_group (connective : Connective) (v : Nat → Bool) (k : Nat) (e : Expression)
    (es : List Expression) :
    connective.combine (values v k (e :: es))
      = some ((group (Reader.alternatives connective (e :: es))).value v k) := by
  rw [value]
  cases connective with
  | and =>
      rw [Reader.alternatives, valueAny, valueAny, Bool.or_false, valueAll_eq]
      rfl
  | or =>
      rw [Reader.alternatives, valueAny_singletons]
      rfl

end Expression

/-! ## Outlines and meanings -/

/-- The condition has a text, and there is nothing written by hand in it. -/
structure Condition.Contributes (condition : Condition) : Prop where
  some : condition.outline.isBlank = false
  plain : condition.stepsAll Step.isPlain = true

/-- The text of the outline is read as an expression with the leaves and the value of
    the meaning; if it is empty, the meaning has no leaves and no value, and only then. -/
structure Outline.Means (o : Outline) (m : Meaning) : Prop where
  contributes : ∀ condition ∈ m.leaves, condition.Contributes
  values : o.values = (m.leaves.map Condition.outline).flatMap Outline.values
  blank : o.isBlank = true → m = .none
  blank_of_leaves : m.leaves = [] → o.isBlank = true
  reads : o.isBlank = false → ∀ (style : MarkerStyle) (bound : Nat),
    ∃ e : Expression, Reader.Reads (o.sql style bound).toList e ∧
      e.leaves = Outline.sqls style bound (m.leaves.map Condition.outline) ∧
      ∀ v k, m.value v k = some (e.value v k)

theorem Outline.Means.isBlank_iff {o : Outline} {m : Meaning} (h : o.Means m) :
    o.isBlank = true ↔ m.leaves = [] := by
  refine ⟨fun h_blank => ?_, h.blank_of_leaves⟩
  rw [h.blank h_blank]
  rfl

theorem Outline.means_none {o : Outline} (h : o.isBlank = true) : o.Means .none := by
  refine ⟨?_, Outline.values_of_isBlank h, fun _ => rfl, fun _ => h, ?_⟩
  · intro condition h_condition
    cases h_condition
  · intro h_some
    rw [h] at h_some
    cases h_some

/-- The operands of a group are those of its parts that are not blank. -/
theorem Outline.exists_operands {os : List Outline} {ms : List Meaning}
    (h : List.Forall₂ Outline.Means os ms) (style : MarkerStyle) (bound : Nat) :
    ∃ es : List Expression,
      List.Forall₂ (fun s e => Reader.Reads s.toList e)
        (Outline.sqls style bound (os.filter (!Outline.isBlank ·))) es ∧
      es.flatMap Expression.leaves
        = Outline.sqls style bound ((ms.flatMap Meaning.leaves).map Condition.outline) ∧
      ∀ v k, (Meaning.values v k ms).filterMap id = Expression.values v k es := by
  induction h generalizing bound with
  | nil => exact ⟨[], .nil, rfl, fun _ _ => rfl⟩
  | @cons o m os ms h_first h_rest ih =>
      cases h_blank : o.isBlank with
      | true =>
          -- A blank part is no operand, and has neither leaves nor a value.
          obtain ⟨es, h_reads, h_leaves, h_values⟩ := ih bound
          have h_none := h_first.blank h_blank
          subst h_none
          refine ⟨es, ?_, h_leaves, h_values⟩
          rw [List.filter_cons, h_blank]
          exact h_reads
      | false =>
          obtain ⟨e, h_read, h_leaf, h_value⟩ := h_first.reads h_blank style bound
          obtain ⟨es, h_reads, h_leaves, h_values⟩ := ih (bound + o.values.length)
          -- As many leaves are read as the part has, so the assignment goes on alike.
          have h_length : e.leaves.length = m.leaves.length := by
            rw [h_leaf, Outline.length_sqls, List.length_map]
          refine ⟨e :: es, ?_, ?_, ?_⟩
          · rw [List.filter_cons, h_blank]
            exact .cons h_read h_reads
          · rw [List.flatMap_cons, h_leaf, h_leaves, List.flatMap_cons, List.map_append,
              Outline.sqls_append, h_first.values]
          · intro v k
            rw [Meaning.values, h_value, Expression.values, h_length, ← h_values]
            rfl

theorem Outline.flatMap_values_of_means {os : List Outline} {ms : List Meaning}
    (h : List.Forall₂ Outline.Means os ms) :
    os.flatMap Outline.values
      = ((ms.flatMap Meaning.leaves).map Condition.outline).flatMap Outline.values := by
  induction h with
  | nil => rfl
  | cons h_first h_rest ih =>
      rw [List.flatMap_cons, ih, h_first.values, List.flatMap_cons, List.map_append,
        List.flatMap_append]

theorem Outline.contributes_of_means {os : List Outline} {ms : List Meaning}
    (h : List.Forall₂ Outline.Means os ms) :
    ∀ condition ∈ ms.flatMap Meaning.leaves, condition.Contributes := by
  induction h with
  | nil =>
      intro condition h_condition
      cases h_condition
  | cons h_first h_rest ih =>
      intro condition h_condition
      rw [List.flatMap_cons, List.mem_append] at h_condition
      rcases h_condition with h_condition | h_condition
      · exact h_first.contributes condition h_condition
      · exact ih condition h_condition

/-- Without a leaf, every part is blank. -/
theorem Outline.filter_eq_nil_of_means {os : List Outline} {ms : List Meaning}
    (h : List.Forall₂ Outline.Means os ms) (h_none : ms.flatMap Meaning.leaves = []) :
    os.filter (!Outline.isBlank ·) = [] := by
  induction h with
  | nil => rfl
  | cons h_first h_rest ih =>
      rw [List.flatMap_cons, List.append_eq_nil_iff] at h_none
      rw [List.filter_cons, h_first.blank_of_leaves h_none.1]
      exact ih h_none.2

theorem Outline.eq_nil_of_sqls {style : MarkerStyle} {bound : Nat} {os : List Outline}
    (h : Outline.sqls style bound os = []) : os = [] := by
  have h_length := Outline.length_sqls style bound os
  rw [h] at h_length
  exact List.length_eq_zero_iff.mp h_length.symm

/-- A group of parts means the group of what they mean. -/
theorem Connective.means_outline (connective : Connective) {os : List Outline}
    {ms : List Meaning} (h : List.Forall₂ Outline.Means os ms) :
    (connective.outline os).Means (.group connective ms) := by
  refine ⟨?_, ?_, ?_, ?_, ?_⟩
  · exact Outline.contributes_of_means h
  · rw [Connective.values_outline]
    exact Outline.flatMap_values_of_means h
  · intro h_blank
    -- A group is blank only if no part of it is left.
    have h_kept : os.filter (!Outline.isBlank ·) = [] := by
      cases h_filter : os.filter (!Outline.isBlank ·) with
      | nil => rfl
      | cons o kept =>
          rw [Connective.outline, h_filter] at h_blank
          cases h_blank
    obtain ⟨es, h_reads, h_leaves, h_values⟩ := Outline.exists_operands h .positional 0
    rw [h_kept, Outline.sqls] at h_reads
    cases h_reads
    have h_none : ms.flatMap Meaning.leaves = [] :=
      List.map_eq_nil_iff.mp (Outline.eq_nil_of_sqls h_leaves.symm)
    rw [Meaning.group, h_none, Meaning.none]
    congr 1
    funext v k
    rw [h_values]
    rfl
  · intro h_none
    rw [Connective.outline, Outline.filter_eq_nil_of_means h h_none]
    rfl
  · intro h_some style bound
    obtain ⟨es, h_reads, h_leaves, h_values⟩ := Outline.exists_operands h style bound
    cases es with
    | nil =>
        -- No operand is left, so the group would be blank.
        have h_kept : os.filter (!Outline.isBlank ·) = [] := by
          cases h_reads' : Outline.sqls style bound (os.filter (!Outline.isBlank ·)) with
          | nil => exact Outline.eq_nil_of_sqls h_reads'
          | cons s texts =>
              rw [h_reads'] at h_reads
              cases h_reads
        rw [Connective.outline, h_kept] at h_some
        cases h_some
    | cons e es =>
        refine ⟨.group (Reader.alternatives connective (e :: es)), ?_, ?_, ?_⟩
        · have h_group := Reader.reads_group connective h_reads (by simp)
          have h_join : (connective.outline os).sql style bound = "( " ++
              connective.separator.intercalate
                (Outline.sqls style bound (os.filter (!Outline.isBlank ·))) ++ " )" := by
            rw [Connective.sql_outline, Connective.join]
            cases h_texts : Outline.sqls style bound (os.filter (!Outline.isBlank ·)) with
            | nil =>
                rw [h_texts] at h_reads
                cases h_reads
            | cons s texts => rfl
          rw [h_join]
          exact h_group
        · rw [Expression.leaves_group, h_leaves]
          rfl
        · intro v k
          show connective.combine ((Meaning.values v k ms).filterMap id) = _
          rw [h_values, Expression.value_group]

/-! ## Leaves -/

namespace Condition

/-- Whether the text that a leaf of a tree is made of is plain; fragments are no
    leaves. -/
def isPlain : Condition → Bool
  | .text sql => Text.isPlain sql
  | .comparison head _ => Text.isPlain head
  | .columns m => m.entries.toList.all (Text.isPlain ·.1)
  | .fragment _ => false

/-- A condition whose text is read as one leaf means that leaf. -/
theorem means_leaf {condition : Condition} (h : condition.Contributes)
    (h_reads : ∀ style bound, Reader.Reads (condition.outline.sql style bound).toList
      (.leaf (condition.outline.sql style bound))) :
    condition.outline.Means (.leaf condition) := by
  refine ⟨?_, ?_, ?_, nofun, ?_⟩
  · intro leaf h_leaf
    rw [List.mem_singleton.mp h_leaf]
    exact h
  · exact (List.flatMap_singleton Outline.values condition.outline).symm
  · intro h_blank
    rw [h.some] at h_blank
    cases h_blank
  · intro _ style bound
    exact ⟨_, h_reads style bound, rfl, fun _ _ => rfl⟩

theorem means_text {sql : String} (h : Text.isPlain sql = true) :
    (Condition.text sql).outline.Means (Condition.text sql).leafMeaning := by
  have h_outline : (Condition.text sql).outline = [.text sql] := by rw [Condition.outline]
  rw [leafMeaning]
  by_cases h_empty : sql = ""
  · rw [if_pos h_empty, h_outline, h_empty]
    exact Outline.means_none rfl
  · rw [if_neg h_empty]
    apply means_leaf
    · refine ⟨?_, rfl⟩
      rw [h_outline, Outline.isBlank, Outline.isBlank, Bool.and_true]
      simpa using h_empty
    · intro style bound
      rw [h_outline, Outline.sql_text]
      exact Reader.reads_text h h_empty

theorem means_comparison {head : String} (h : Text.isPlain head = true)
    (operand : Option Operand) :
    (Condition.comparison head operand).outline.Means
      (Condition.comparison head operand).leafMeaning := by
  cases operand with
  | none =>
      apply Outline.means_none
      rw [Condition.outline]
      rfl
  | some operand =>
      have h_outline : (Condition.comparison head (some operand)).outline
          = operand.outline head := by
        rw [Condition.outline]
        rfl
      apply means_leaf
      · refine ⟨?_, rfl⟩
        rw [h_outline, Operand.isBlank_outline]
      · intro style bound
        rw [h_outline]
        exact Reader.reads_comparison h operand style bound

/-- The head of a plain column is plain. -/
theorem isPlain_head {column : String} (h : Text.isPlain column = true) :
    Text.isPlain (column ++ " =") = true := by
  rw [Text.isPlain, Bool.and_eq_true] at h ⊢
  have h_text : (column ++ " =").toList = column.toList ++ ' ' :: ['='] := by simp
  rw [h_text, List.splitOn_append_cons_self, List.all_append, List.all_append, h.1, h.2]
  decide

/-- The entries of a column map mean their comparisons. -/
theorem means_entries {m : ColumnMap} (h : (Condition.columns m).isPlain = true) :
    List.Forall₂ Outline.Means (m.conditions.map Condition.outline)
      (m.conditions.map leafMeaning) := by
  rw [isPlain, List.all_eq_true] at h
  rw [List.forall₂_map_left_iff, List.forall₂_map_right_iff, List.forall₂_same]
  intro condition h_condition
  obtain ⟨entry, h_entry, rfl⟩ := List.mem_map.mp h_condition
  exact means_comparison (isPlain_head (h entry h_entry)) _

/-- A leaf of a tree means what it is, also where it is spliced. -/
theorem means_spliced {condition : Condition} (h : condition.isPlain = true) :
    condition.outline.Means condition.meaning ∧
      ∃ ms, List.Forall₂ Outline.Means (condition.spliced.map Condition.outline) ms ∧
        Meaning.group .and ms = condition.meaning := by
  cases condition with
  | text sql =>
      have h_text := means_text h
      exact ⟨h_text, [_], .cons h_text .nil, Meaning.group_and_singleton _⟩
  | comparison head operand =>
      have h_comparison := means_comparison h operand
      exact ⟨h_comparison, [_], .cons h_comparison .nil, Meaning.group_and_singleton _⟩
  | columns m =>
      have h_entries := means_entries h
      have h_whole := Connective.and.means_outline h_entries
      rw [outlines_conditions] at h_whole
      refine ⟨?_, _, h_entries, rfl⟩
      rw [Condition.outline]
      exact h_whole
  | fragment f => cases h

end Condition

end SqlCompose
