/-
  SqlCompose.Proofs.Outline.Render

  The outline of a fragment, read off the fragment without rendering it, and the
  theorem that rendering follows it (`Fragment.binds_outline`): on every collector
  a fragment writes the text of its outline, numbered after the values that the
  collector holds, and binds the values of its outline behind them.

  A fragment written by hand can bind without writing the marker, or write the
  number of the values bound so far. Such steps have no outline, so the theorem is
  about fragments all of whose steps are plain (`Step.isPlain`); there is no
  restriction on anything else.

  `Render.Binds` is the invariant of the rendering functions. It is closed under
  sequencing (`Render.Binds.seq`), and the mutual induction over fragments,
  conditions and steps uses nothing else about collectors.
-/
import SqlCompose.Fragment.Render
import SqlCompose.Proofs.Outline.Basic

namespace SqlCompose

/-! ## Outlines of fragments -/

/-- The outline of a comparison. -/
def Operand.outline (head : String) : Operand → Outline
  | .value v => [.text (head ++ " "), .value v]
  | .list [] => [.text (head ++ " ( NULL )")]
  | .list vs => .text (head ++ " ( ") :: (Outline.joined ", " (vs.map ([.value ·])) ++ [.text " )"])

theorem Operand.outline_cons (head : String) (v : Value) (vs : List Value) :
    (Operand.list (v :: vs)).outline head
      = .text (head ++ " ( ") ::
          (Outline.joined ", " ((v :: vs).map ([.value ·])) ++ [.text " )"]) := rfl

/-- The outline of a comparison that contributes nothing without an operand. -/
def Operand.outlineOption (head : String) : Option Operand → Outline
  | none => []
  | some operand => operand.outline head

/-- The outline of a group: its parts that are not blank, in parentheses. -/
def Connective.outline (connective : Connective) (parts : List Outline) : Outline :=
  let kept := parts.filter (!Outline.isBlank ·)
  if kept.isEmpty then []
  else .text "( " :: (Outline.joined connective.separator kept ++ [.text " )"])

/-- The outlines of the comparisons of a column map. -/
def ColumnMap.entryOutline (entry : String × Option Value) : Outline :=
  Operand.outlineOption (entry.1 ++ " =") (entry.2.map .value)

/-- The outline of a WHERE clause over a condition. -/
def Outline.filtered (o : Outline) : Outline := if o.isBlank then [] else .text "WHERE " :: o

/-- The outline of a column list and the row of its values. -/
def rowOutline (entries : List (String × Value)) : Outline :=
  .text ("(" ++ ", ".intercalate (entries.map Prod.fst) ++ ") VALUES (") ::
    (Outline.joined ", " (entries.map ([.value ·.2])) ++ [.text ")"])

/-- The outline of a SET clause. -/
def assignmentsOutline (entries : List (String × Value)) : Outline :=
  .text "SET " ::
    Outline.joined ", " (entries.map fun (column, v) => [.text (column ++ " = "), .value v])

/-- The outline of a bound on the rows. -/
def boundOutline (which : RowBound) (rows : Option Int64) : Outline :=
  match rows.filter (· ≠ 0) with
  | none => []
  | some n => [.text (which.keyword ++ " "), .value (.int n)]

/-- Whether a step writes the marker of what it binds, and nothing else that
    depends on the collector. -/
def Step.isPlain : Step → Bool
  | .bindSilently _ | .count | .styleName => false
  | _ => true

mutual

/-- The outline of a fragment. -/
def Fragment.outline : Fragment → Outline
  | .text sql => [.text sql]
  | .group connective conditions => connective.outline (conditionOutlines conditions)
  | .filtered condition => condition.outline.filtered
  | .row entries => rowOutline entries
  | .assignments entries => assignmentsOutline entries
  | .bound which rows => boundOutline which rows
  | .script steps => stepsOutline steps

/-- The outline of a condition. -/
def Condition.outline : Condition → Outline
  | .text sql => [.text sql]
  | .comparison head operand => Operand.outlineOption head operand
  | .columns m => Connective.and.outline (m.entries.toList.map ColumnMap.entryOutline)
  | .fragment f => f.outline

def conditionOutlines : List Condition → List Outline
  | [] => []
  | condition :: rest => condition.outline :: conditionOutlines rest

/-- The outline of a step, if it is plain. -/
def Step.outline : Step → Outline
  | .text sql => [.text sql]
  | .bind v => [.value v]
  | .bindSilently _ | .count | .styleName => []
  | .condition condition =>
    if condition.outline.isBlank then [.text "<none>"] else condition.outline
  | .fragment f => f.outline

def stepsOutline : List Step → Outline
  | [] => []
  | step :: rest => step.outline ++ stepsOutline rest

end

mutual

/-- Whether every step of every fragment written by hand meets `p`, however deep the
    fragment stands. -/
def Fragment.stepsAll (p : Step → Bool) : Fragment → Bool
  | .group _ conditions => conditionsStepsAll p conditions
  | .filtered condition => condition.stepsAll p
  | .script steps => stepsStepsAll p steps
  | .text _ | .row _ | .assignments _ | .bound .. => true

def Condition.stepsAll (p : Step → Bool) : Condition → Bool
  | .fragment f => f.stepsAll p
  | .text _ | .comparison .. | .columns _ => true

def conditionsStepsAll (p : Step → Bool) : List Condition → Bool
  | [] => true
  | condition :: rest => condition.stepsAll p && conditionsStepsAll p rest

def Step.stepsAll (p : Step → Bool) : Step → Bool
  | .condition condition => p (.condition condition) && condition.stepsAll p
  | .fragment f => p (.fragment f) && f.stepsAll p
  | step => p step

def stepsStepsAll (p : Step → Bool) : List Step → Bool
  | [] => true
  | step :: rest => step.stepsAll p && stepsStepsAll p rest

end

theorem conditionOutlines_eq_map (conditions : List Condition) :
    conditionOutlines conditions = conditions.map Condition.outline := by
  induction conditions with
  | nil => rfl
  | cons condition rest ih => rw [conditionOutlines, ih, List.map_cons]

/-! ## Values -/

theorem values_singletons (vs : List Value) :
    (vs.map ([Piece.value ·])).flatMap Outline.values = vs := by
  induction vs with
  | nil => rfl
  | cons v vs ih =>
      rw [List.map_cons, List.flatMap_cons, ih]
      rfl

def Operand.values : Operand → List Value
  | .value v => [v]
  | .list vs => vs

theorem Operand.values_outline (head : String) (operand : Operand) :
    (operand.outline head).values = operand.values := by
  cases operand with
  | value v => rfl
  | list vs =>
      cases vs with
      | nil => rfl
      | cons v vs =>
          rw [Operand.outline_cons, Outline.values, Outline.values_append, Outline.values_joined,
            values_singletons]
          exact List.append_nil _

theorem map_value_snd (entries : List (String × Value)) :
    entries.map ([Piece.value ·.2]) = (entries.map Prod.snd).map ([Piece.value ·]) := by
  rw [List.map_map]
  rfl

theorem values_rowOutline (entries : List (String × Value)) :
    (rowOutline entries).values = entries.map Prod.snd := by
  rw [rowOutline, Outline.values, Outline.values_append, Outline.values_joined, map_value_snd,
    values_singletons]
  exact List.append_nil _

theorem values_assignmentsOutline (entries : List (String × Value)) :
    (assignmentsOutline entries).values = entries.map Prod.snd := by
  rw [assignmentsOutline, Outline.values, Outline.values_joined, List.flatMap_map]
  induction entries with
  | nil => rfl
  | cons entry entries ih =>
      rw [List.flatMap_cons, ih]
      rfl

/-- A comparison always has a text. -/
theorem Operand.isBlank_outline (head : String) (operand : Operand) :
    (operand.outline head).isBlank = false := by
  have h_text : ∀ s : String, s ≠ "" → (head ++ s).isEmpty = false := by
    intro s h_s
    rw [← Bool.not_eq_true, String.isEmpty_iff, String.append_eq_empty_iff]
    exact fun h => h_s h.2
  cases operand with
  | value v => rw [Operand.outline, Outline.isBlank, Outline.isBlank, Bool.and_false]
  | list vs =>
      cases vs with
      | nil => rw [Operand.outline, Outline.isBlank, h_text _ (by decide), Bool.false_and]
      | cons v vs =>
          rw [Operand.outline_cons, Outline.isBlank, h_text _ (by decide), Bool.false_and]

theorem Connective.values_outline (connective : Connective) (parts : List Outline) :
    (connective.outline parts).values = parts.flatMap Outline.values := by
  rw [← Outline.flatMap_values_filter parts, Connective.outline]
  by_cases h : (parts.filter (!Outline.isBlank ·)).isEmpty = true
  · rw [if_pos h, List.isEmpty_iff.mp h]
    rfl
  · rw [if_neg h, Outline.values, Outline.values_append, Outline.values_joined]
    exact List.append_nil _

/-- The text of a group is that of its parts, joined. -/
theorem Connective.sql_outline (connective : Connective) (style : MarkerStyle) (bound : Nat)
    (parts : List Outline) :
    (connective.outline parts).sql style bound
      = connective.join (Outline.sqls style bound (parts.filter (!Outline.isBlank ·))) := by
  rw [Connective.outline, Connective.join]
  cases parts.filter (!Outline.isBlank ·) with
  | nil => rfl
  | cons o os =>
      have h_kept : (o :: os).isEmpty = false := rfl
      have h_texts : (Outline.sqls style bound (o :: os)).isEmpty = false := rfl
      rw [h_kept, h_texts, if_neg Bool.false_ne_true, if_neg Bool.false_ne_true, Outline.sql,
        Outline.sql_append, Outline.sql_joined, Outline.sql_text, String.append_assoc]

/-! ## Computations that bind -/

/-- The collector with more values behind its own. -/
def Collector.holding (c : Collector) (vs : List Value) : Collector :=
  { c with values := c.values ++ vs }

@[simp] theorem Collector.holding_style (c : Collector) (vs : List Value) :
    (c.holding vs).style = c.style := rfl

@[simp] theorem Collector.holding_nil (c : Collector) : c.holding [] = c := by
  simp [Collector.holding]

theorem Collector.size_holding (c : Collector) (vs : List Value) :
    (c.holding vs).values.size = c.values.size + vs.length := by
  rw [Collector.holding, ← Array.length_toList, Array.toList_appendList, List.length_append,
    Array.length_toList]

theorem Collector.holding_holding (c : Collector) (vs ws : List Value) :
    (c.holding vs).holding ws = c.holding (vs ++ ws) := by
  have h_values : c.values ++ vs ++ ws = c.values ++ (vs ++ ws) := by
    apply Array.ext'
    simp
  rw [Collector.holding, Collector.holding, Collector.holding, h_values]

namespace Render

variable {α β γ : Type}

/-- On every collector `x` binds `vs`, and what it gives depends on the style of the
    collector and on the number of its values in the way of `result`. -/
def Binds (x : Render α) (vs : List Value) (result : MarkerStyle → Nat → α) : Prop :=
  ∀ c : Collector, c.run x = (result c.style c.values.size, c.holding vs)

theorem Binds.pure (a : α) : Binds (pure a : Render α) [] fun _ _ => a := by
  intro c
  rw [Collector.run_pure, Collector.holding_nil]

theorem binds_bind (v : Value) :
    Binds (Collector.bind v) [v] fun style n => style.marker (n + 1) := by
  intro c
  rw [Collector.run_bind_value]
  simp [Collector.holding]

theorem Binds.map {x : Render α} {vs : List Value} {t : MarkerStyle → Nat → α}
    (hx : Binds x vs t) (f : α → β) :
    Binds (do let a ← x; return f a) vs fun style n => f (t style n) := by
  intro c
  rw [Collector.run_bind, hx c, Collector.run_pure]

/-- The second of two computations comes after the values of the first one. -/
theorem Binds.seq {x : Render α} {y : Render β} {vs ws : List Value}
    {t : MarkerStyle → Nat → α} {u : MarkerStyle → Nat → β}
    (hx : Binds x vs t) (hy : Binds y ws u) (f : α → β → γ) :
    Binds (do let a ← x; let b ← y; return f a b) (vs ++ ws)
      fun style n => f (t style n) (u style (n + vs.length)) := by
  intro c
  rw [Collector.run_bind, hx c, Collector.run_bind, hy (c.holding vs), Collector.run_pure,
    Collector.holding_holding, Collector.holding_style, Collector.size_holding]

/-- The same computation with its values and its result written differently. -/
theorem Binds.congr {x : Render α} {vs ws : List Value} {t u : MarkerStyle → Nat → α}
    (hx : Binds x vs t) (h_values : vs = ws) (h_result : ∀ style n, t style n = u style n) :
    Binds x ws u := by
  intro c
  rw [hx c, h_values, h_result]

theorem binds_bindAll (vs : List Value) :
    Binds (Collector.bindAll vs) vs
      fun style n => Outline.sqls style n (vs.map ([.value ·])) := by
  induction vs with
  | nil => exact Binds.pure []
  | cons v vs ih =>
      -- The first marker is in front, and the others are numbered after it.
      refine ((binds_bind v).seq ih (· :: ·)).congr rfl ?_
      intro style n
      rw [List.map_cons, Outline.sqls, Outline.sql_value]
      rfl

end Render

/-! ## Rendering follows the outline -/

open Render (Binds)

theorem nonempty_sql (style : MarkerStyle) (bound : Nat) (o : Outline) :
    nonempty (o.sql style bound) = if o.isBlank then none else some (o.sql style bound) := by
  rw [nonempty, Outline.isEmpty_sql]

/-- A text that may be dropped, before texts that were kept, is kept if its outline
    is not blank. -/
theorem toList_nonempty_append (style : MarkerStyle) (bound : Nat) (o : Outline)
    (os : List Outline) :
    (nonempty (o.sql style bound)).toList
        ++ Outline.sqls style (bound + o.values.length) (os.filter (!Outline.isBlank ·))
      = Outline.sqls style bound ((o :: os).filter (!Outline.isBlank ·)) := by
  rw [nonempty_sql, List.filter_cons]
  cases h : o.isBlank with
  | true =>
      rw [Outline.values_of_isBlank h]
      rfl
  | false => rfl

theorem Operand.binds_render (head : String) (operand : Operand) :
    Binds (operand.render head) (operand.outline head).values
      fun style n => (operand.outline head).sql style n := by
  cases operand with
  | value v =>
      refine ((Render.binds_bind v).map (head ++ " " ++ ·)).congr rfl ?_
      intro style n
      rw [Operand.outline, Outline.sql, Outline.sql_value]
  | list vs =>
      cases vs with
      | nil =>
          refine (Binds.pure (head ++ " ( NULL )")).congr rfl ?_
          intro style n
          rw [Operand.outline, Outline.sql_text]
      | cons v vs =>
          refine ((Render.binds_bindAll (v :: vs)).map
            (head ++ " ( " ++ ", ".intercalate · ++ " )")).congr ?_ ?_
          · exact (Operand.values_outline head (.list (v :: vs))).symm
          · intro style n
            rw [Operand.outline_cons, Outline.sql, Outline.sql_append, Outline.sql_joined,
              Outline.sql_text, String.append_assoc]

theorem Operand.binds_renderOption (head : String) (operand : Option Operand) :
    Binds (Operand.renderOption head operand) (Operand.outlineOption head operand).values
      fun style n => nonempty ((Operand.outlineOption head operand).sql style n) := by
  cases operand with
  | none => exact Binds.pure none
  | some operand => exact (operand.binds_render head).map nonempty

theorem ColumnMap.binds_renderEntries (entries : List (String × Option Value)) :
    Binds (ColumnMap.renderEntries entries)
      ((entries.map ColumnMap.entryOutline).flatMap Outline.values)
      fun style n => Outline.sqls style n
        ((entries.map ColumnMap.entryOutline).filter (!Outline.isBlank ·)) := by
  induction entries with
  | nil => exact Binds.pure []
  | cons entry rest ih =>
      -- An entry without a value is no part of the text, and its outline is blank.
      obtain ⟨column, value⟩ := entry
      have h_entry := Operand.binds_renderOption (column ++ " =") (value.map .value)
      refine (h_entry.seq ih (fun part parts => part.toList ++ parts)).congr rfl ?_
      intro style n
      exact toList_nonempty_append style n _ _

theorem binds_renderRow (entries : List (String × Value)) :
    Binds (renderRow entries) (rowOutline entries).values
      fun style n => (rowOutline entries).sql style n := by
  refine ((Render.binds_bindAll (entries.map Prod.snd)).map fun markers =>
    "(" ++ ", ".intercalate (entries.map Prod.fst) ++ ") VALUES (" ++
      ", ".intercalate markers ++ ")").congr ?_ ?_
  · exact (values_rowOutline entries).symm
  · intro style n
    rw [rowOutline, Outline.sql, Outline.sql_append, Outline.sql_joined, map_value_snd,
      Outline.sql_text, String.append_assoc]

theorem binds_renderAssignments (entries : List (String × Value)) :
    Binds (renderAssignments entries)
      ((entries.map fun (column, v) => [Piece.text (column ++ " = "), .value v]).flatMap
        Outline.values)
      fun style n => Outline.sqls style n
        (entries.map fun (column, v) => [Piece.text (column ++ " = "), .value v]) := by
  induction entries with
  | nil => exact Binds.pure []
  | cons entry rest ih =>
      obtain ⟨column, v⟩ := entry
      refine ((Render.binds_bind v).seq ih
        fun marker parts => (column ++ " = " ++ marker) :: parts).congr rfl ?_
      intro style n
      rw [List.map_cons, Outline.sqls, Outline.sql, Outline.sql_value]
      rfl

theorem binds_renderBound (which : RowBound) (rows : Option Int64) :
    Binds (renderBound which rows) (boundOutline which rows).values
      fun style n => (boundOutline which rows).sql style n := by
  rw [renderBound, boundOutline]
  cases rows.filter (· ≠ 0) with
  | none => exact Binds.pure ""
  | some n =>
      refine ((Render.binds_bind (.int n)).map (which.keyword ++ " " ++ ·)).congr rfl ?_
      intro style bound
      rw [Outline.sql, Outline.sql_value]

theorem Outline.values_filtered (o : Outline) : o.filtered.values = o.values := by
  rw [Outline.filtered]
  cases h : o.isBlank with
  | true => rw [if_pos rfl, Outline.values_of_isBlank h, Outline.values]
  | false => rfl

theorem Outline.sql_filtered (style : MarkerStyle) (bound : Nat) (o : Outline) :
    o.filtered.sql style bound
      = if (o.sql style bound).isEmpty then "" else "WHERE " ++ o.sql style bound := by
  rw [Outline.filtered, Outline.isEmpty_sql]
  cases o.isBlank with
  | true => rfl
  | false => rfl

mutual

/-- A fragment with plain steps writes and binds what its outline says. -/
theorem Fragment.binds_outline : (f : Fragment) → f.stepsAll Step.isPlain = true →
    Binds f.render f.outline.values fun style n => f.outline.sql style n
  | .text sql, _ => by
      rw [Fragment.render, Fragment.outline]
      refine (Binds.pure sql).congr rfl ?_
      intro style n
      rw [Outline.sql_text]
  | .group connective conditions, h => by
      rw [Fragment.stepsAll] at h
      rw [Fragment.render, Fragment.outline]
      -- What drops out of the group is rendered all the same, but has bound nothing.
      refine ((binds_conditionOutlines conditions h).map connective.join).congr ?_ ?_
      · rw [Connective.values_outline]
      · intro style n
        rw [Connective.sql_outline]
  | .filtered condition, h => by
      rw [Fragment.stepsAll] at h
      rw [Fragment.render, Fragment.outline]
      refine ((condition.binds_outline h).map fun sql =>
        if sql.isEmpty then "" else "WHERE " ++ sql).congr ?_ ?_
      · rw [Outline.values_filtered]
      · intro style n
        rw [Outline.sql_filtered]
  | .row entries, _ => by
      rw [Fragment.render, Fragment.outline]
      exact binds_renderRow entries
  | .assignments entries, _ => by
      rw [Fragment.render, Fragment.outline]
      refine ((binds_renderAssignments entries).map ("SET " ++ ", ".intercalate ·)).congr ?_ ?_
      · rw [assignmentsOutline, Outline.values, Outline.values_joined]
      · intro style n
        rw [assignmentsOutline, Outline.sql, Outline.sql_joined]
  | .bound which rows, _ => by
      rw [Fragment.render, Fragment.outline]
      exact binds_renderBound which rows
  | .script steps, h => by
      rw [Fragment.stepsAll] at h
      rw [Fragment.render, Fragment.outline]
      exact binds_stepsOutline steps h

/-- A condition contributes the text of its outline, unless that is blank. -/
theorem Condition.binds_outline : (condition : Condition) →
    condition.stepsAll Step.isPlain = true →
    Binds condition.render condition.outline.values
      fun style n => nonempty (condition.outline.sql style n)
  | .text sql, _ => by
      rw [Condition.render, Condition.outline]
      refine (Binds.pure (nonempty sql)).congr rfl ?_
      intro style n
      rw [Outline.sql_text]
  | .comparison head operand, _ => by
      rw [Condition.render, Condition.outline]
      exact Operand.binds_renderOption head operand
  | .columns m, _ => by
      rw [Condition.render, Condition.outline]
      refine ((ColumnMap.binds_renderEntries m.entries.toList).map fun parts =>
        nonempty (Connective.and.join parts)).congr ?_ ?_
      · rw [Connective.values_outline]
      · intro style n
        rw [Connective.sql_outline]
  | .fragment f, h => by
      rw [Condition.stepsAll] at h
      rw [Condition.render, Condition.outline]
      exact (f.binds_outline h).map nonempty

/-- Of conditions in a row those remain whose outlines are not blank. -/
theorem binds_conditionOutlines : (conditions : List Condition) →
    conditionsStepsAll Step.isPlain conditions = true →
    Binds (renderConditions conditions) ((conditionOutlines conditions).flatMap Outline.values)
      fun style n => Outline.sqls style n
        ((conditionOutlines conditions).filter (!Outline.isBlank ·))
  | [], _ => by
      rw [renderConditions, conditionOutlines]
      exact Binds.pure []
  | condition :: rest, h => by
      rw [conditionsStepsAll, Bool.and_eq_true] at h
      rw [renderConditions, conditionOutlines]
      refine ((condition.binds_outline h.1).seq (binds_conditionOutlines rest h.2)
        (fun part parts => part.toList ++ parts)).congr rfl ?_
      intro style n
      exact toList_nonempty_append style n _ _

theorem Step.binds_outline : (step : Step) → step.stepsAll Step.isPlain = true →
    Binds step.render step.outline.values fun style n => step.outline.sql style n
  | .text sql, _ => by
      rw [Step.render, Step.outline]
      refine (Binds.pure sql).congr rfl ?_
      intro style n
      rw [Outline.sql_text]
  | .bind v, _ => by
      rw [Step.render, Step.outline]
      refine (Render.binds_bind v).congr rfl ?_
      intro style n
      rw [Outline.sql_value]
  | .bindSilently _, h | .count, h | .styleName, h => by
      simp [Step.stepsAll, Step.isPlain] at h
  | .condition condition, h => by
      rw [Step.stepsAll, Bool.and_eq_true] at h
      rw [Step.render, Step.outline]
      -- Without a text the step writes that there is none; then nothing was bound.
      refine ((condition.binds_outline h.2).map (·.getD "<none>")).congr ?_ ?_
      · cases h_blank : condition.outline.isBlank with
        | true =>
            rw [Outline.values_of_isBlank h_blank]
            rfl
        | false => rfl
      · intro style n
        rw [nonempty_sql]
        cases condition.outline.isBlank with
        | true => rfl
        | false => rfl
  | .fragment f, h => by
      rw [Step.stepsAll, Bool.and_eq_true] at h
      rw [Step.render, Step.outline]
      exact f.binds_outline h.2

theorem binds_stepsOutline : (steps : List Step) → stepsStepsAll Step.isPlain steps = true →
    Binds (renderSteps steps) (stepsOutline steps).values
      fun style n => (stepsOutline steps).sql style n
  | [], _ => by
      rw [renderSteps, stepsOutline]
      exact Binds.pure ""
  | step :: rest, h => by
      rw [stepsStepsAll, Bool.and_eq_true] at h
      rw [renderSteps, stepsOutline]
      refine ((step.binds_outline h.1).seq (binds_stepsOutline rest h.2) (· ++ ·)).congr ?_ ?_
      · rw [Outline.values_append]
      · intro style n
        rw [Outline.sql_append]

end

end SqlCompose
