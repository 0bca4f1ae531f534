/-
  SqlCompose.Proofs.Reading.Tree

  Trees of conditions as they are read. A tree is a group of groups and leaves, or a
  WHERE clause over such; its leaves are texts, comparisons and column maps. A tree
  renders to no text if none of its leaves contributes anything. Otherwise the reader
  gets through all of the text, finds the leaves that do, and the expression it finds
  has the value of the tree under every assignment to the leaves
  (`Plan.exists_read_of_build`).

  `Role.Means` is what holds of a tree wherever it stands in another one: on its own,
  spliced into a conjunction, or under a WHERE.
-/
import SqlCompose.Proofs.Reading.Meaning

namespace SqlCompose

/-! ## Trees -/

namespace Plan

variable {α : Type}

mutual

/-- Whether there is no WHERE clause in the plan. -/
def isClauseFree : Plan α → Bool
  | .leaf _ => true
  | .group _ plans => allClauseFree plans
  | .filtered _ => false

def allClauseFree : List (Plan α) → Bool
  | [] => true
  | plan :: rest => isClauseFree plan && allClauseFree rest

end

/-- Whether the plan is a group, or a WHERE clause over something, without a WHERE
    clause inside. -/
def isTree : Plan α → Bool
  | .leaf _ => false
  | .group _ plans => allClauseFree plans
  | .filtered plans => !plans.isEmpty && allClauseFree plans

/-- The text in front of the condition. -/
def lead : Plan α → String
  | .filtered _ => "WHERE "
  | _ => ""

mutual

theorem isFilled_of_isClauseFree : (plan : Plan α) → plan.isClauseFree = true →
    plan.isFilled = true
  | .leaf _, _ => rfl
  | .group _ plans, h => by
      rw [isClauseFree] at h
      rw [isFilled]
      exact allFilled_of_allClauseFree plans h
  | .filtered _, h => by cases h

theorem allFilled_of_allClauseFree : (plans : List (Plan α)) → allClauseFree plans = true →
    allFilled plans = true
  | [], _ => rfl
  | plan :: rest, h => by
      rw [allClauseFree, Bool.and_eq_true] at h
      rw [allFilled, isFilled_of_isClauseFree plan h.1, allFilled_of_allClauseFree rest h.2]
      rfl

end

theorem isFilled_of_isTree {plan : Plan α} (h : plan.isTree = true) : plan.isFilled = true := by
  cases plan with
  | leaf a => rfl
  | group connective plans =>
      rw [isTree] at h
      rw [isFilled]
      exact allFilled_of_allClauseFree plans h
  | filtered plans =>
      rw [isTree, Bool.and_eq_true] at h
      rw [isFilled, h.1, allFilled_of_allClauseFree plans h.2]
      rfl

end Plan

/-! ## Roles -/

/-- Wherever it stands, what has the role means `m`. -/
structure Role.Means (r : Role Outline) (m : Meaning) : Prop where
  whole : r.whole.Means m
  spliced : ∃ ms, List.Forall₂ Outline.Means r.spliced ms ∧ Meaning.group .and ms = m
  only : r.only.Means m

theorem Role.means_single {o : Outline} {m : Meaning} (h : o.Means m) :
    (Role.single o).Means m :=
  ⟨h, ⟨[m], .cons h .nil, Meaning.group_and_singleton m⟩, h⟩

theorem Condition.means_role {condition : Condition} (h : condition.isPlain = true) :
    condition.role.Means condition.meaning := by
  obtain ⟨h_whole, ms, h_parts, h_group⟩ := Condition.means_spliced h
  have h_fragment : ∀ f, condition ≠ .fragment f := by
    intro f h_f
    rw [h_f] at h
    cases h
  have h_only := Connective.and.means_outline h_parts
  rw [h_group] at h_only
  rw [Condition.role_eq h_fragment]
  exact ⟨h_whole, ⟨ms, h_parts, h_group⟩, h_only⟩

/-- A group over roles means the group of what they mean, although the parts of a
    conjunction are spliced into it. -/
theorem Role.means_group (connective : Connective) {rs : List (Role Outline)}
    {ms : List Meaning} (h : List.Forall₂ Role.Means rs ms) :
    (connective.outline (rs.flatMap (·.parts connective))).Means (.group connective ms) := by
  cases connective with
  | or =>
      have h_wholes : List.Forall₂ Outline.Means (rs.flatMap (·.parts .or)) ms := by
        induction h with
        | nil => exact .nil
        | cons h_first h_rest ih => exact .cons h_first.whole ih
      exact Connective.or.means_outline h_wholes
  | and =>
      -- Each role is spliced into parts, whose conjunction is its meaning.
      have h_parts : ∃ mss : List (List Meaning),
          List.Forall₂ Outline.Means (rs.flatMap (·.parts .and)) mss.flatten ∧
            mss.map (.group .and) = ms := by
        induction h with
        | nil => exact ⟨[], .nil, rfl⟩
        | cons h_first h_rest ih =>
            obtain ⟨ns, h_spliced, h_group⟩ := h_first.spliced
            obtain ⟨mss, h_more, h_groups⟩ := ih
            refine ⟨ns :: mss, ?_, ?_⟩
            · rw [List.flatMap_cons, List.flatten_cons]
              exact List.rel_append h_spliced h_more
            · rw [List.map_cons, h_group, h_groups]
      obtain ⟨mss, h_spliced, h_groups⟩ := h_parts
      have h_means := Connective.and.means_outline h_spliced
      rw [Meaning.group_and_flatten, h_groups] at h_means
      exact h_means

/-- What a WHERE clause is about means the conjunction of its conditions. -/
theorem Role.means_over {α : Type} {leaf : α → Role Outline} {rs : List (Role Outline)}
    {ms : List Meaning} (h : List.Forall₂ Role.Means rs ms) :
    ((Target.outlines leaf).over rs).Means (.group .and ms) := by
  refine Target.over_of_forall₂ (Q := fun o ms => o.Means (.group .and ms)) h ?_ ?_
  · intro r m h_role
    rw [Meaning.group_and_singleton]
    exact h_role.only
  · exact Role.means_group .and h

namespace Plan

mutual

theorem means_role : (plan : Plan Condition) → plan.isClauseFree = true →
    (∀ condition ∈ plan.leaves, condition.isPlain = true) →
    (plan.role (.outlines Condition.role)).Means plan.meaning
  | .leaf condition, _, h_plain => by
      rw [Plan.role, Plan.meaning]
      exact Condition.means_role (h_plain condition (by simp [Plan.leaves]))
  | .group connective plans, h_free, h_plain => by
      rw [isClauseFree] at h_free
      rw [Plan.leaves] at h_plain
      rw [Plan.role, Plan.meaning]
      exact Role.means_single
        (Role.means_group connective (means_roles plans h_free h_plain))
  | .filtered _, h_free, _ => by cases h_free

theorem means_roles : (plans : List (Plan Condition)) → allClauseFree plans = true →
    (∀ condition ∈ leavesAll plans, condition.isPlain = true) →
    List.Forall₂ Role.Means (Plan.roles (.outlines Condition.role) plans) (meanings plans)
  | [], _, _ => by
      rw [Plan.roles, Plan.meanings]
      exact .nil
  | plan :: rest, h_free, h_plain => by
      rw [allClauseFree, Bool.and_eq_true] at h_free
      rw [Plan.leavesAll] at h_plain
      rw [Plan.roles, Plan.meanings]
      refine .cons ?_ ?_
      · exact means_role plan h_free.1 fun a h_a => h_plain a (List.mem_append_left _ h_a)
      · exact means_roles rest h_free.2 fun a h_a => h_plain a (List.mem_append_right _ h_a)

end

/-- Behind its lead, the text of a tree is that of an outline that means the tree. -/
theorem exists_means {plan : Plan Condition} (h_tree : plan.isTree = true)
    (h_plain : ∀ condition ∈ plan.leaves, condition.isPlain = true) :
    ∃ o : Outline, o.Means plan.meaning ∧
      (o.isBlank = true → (plan.role (.outlines Condition.role)).whole.isBlank = true) ∧
      (o.isBlank = false → ∀ style bound,
        (plan.role (.outlines Condition.role)).whole.sql style bound
          = plan.lead ++ o.sql style bound) := by
  cases plan with
  | leaf condition => cases h_tree
  | group connective plans =>
      rw [isTree] at h_tree
      rw [Plan.leaves] at h_plain
      refine ⟨_, Role.means_group connective (means_roles plans h_tree h_plain), ?_, ?_⟩
      · intro h_blank
        rw [Plan.role]
        exact h_blank
      · intro _ style bound
        have h_lead : (Plan.group connective plans).lead = "" := rfl
        rw [Plan.role, h_lead, String.empty_append]
        rfl
  | filtered plans =>
      rw [isTree, Bool.and_eq_true] at h_tree
      rw [Plan.leaves] at h_plain
      have h_roles := means_roles plans h_tree.2 h_plain
      have h_means : ((Target.outlines Condition.role).over
          (Plan.roles (.outlines Condition.role) plans)).Means
            (Plan.filtered plans).meaning := Role.means_over h_roles
      refine ⟨_, h_means, ?_, ?_⟩
      · intro h_blank
        rw [Plan.role]
        show (Outline.filtered _).isBlank = true
        rw [Outline.filtered, h_blank]
        rfl
      · intro h_some style bound
        rw [Plan.role]
        show (Outline.filtered _).sql style bound = _
        rw [Outline.filtered, h_some]
        rfl

end Plan

/-! ## Reading what was rendered -/

/-- Conditions that contribute a text are rendered one after the other. -/
theorem run_renderConditions {conditions : List Condition}
    (h : ∀ condition ∈ conditions, condition.Contributes) (c : Collector) :
    (c.run (renderConditions conditions)).1
      = Outline.sqls c.style c.values.size (conditions.map Condition.outline) := by
  have h_plain : conditionsStepsAll Step.isPlain conditions = true := by
    rw [conditionsStepsAll_eq_all, List.all_eq_true]
    exact fun condition h_condition => (h condition h_condition).plain
  have h_kept : (conditions.map Condition.outline).filter (!Outline.isBlank ·)
      = conditions.map Condition.outline := by
    rw [List.filter_eq_self]
    intro o h_o
    obtain ⟨condition, h_condition, rfl⟩ := List.mem_map.mp h_o
    rw [(h condition h_condition).some]
    rfl
  rw [binds_conditionOutlines conditions h_plain c]
  show Outline.sqls c.style c.values.size
    ((conditionOutlines conditions).filter (!Outline.isBlank ·)) = _
  rw [conditionOutlines_eq_map, h_kept]

/-- Whatever tree of plain leaves is built, it has a text if and only if a leaf of it
    contributes one. The text is read to the end; the leaves that are found are the texts of
    those that contribute one, and the expression has the value of the tree. -/
theorem Plan.exists_read_of_build (plan : Plan Condition) (h_tree : plan.isTree = true)
    (h_plain : ∀ condition ∈ plan.leaves, condition.isPlain = true) :
    ∃ f : Fragment, (plan.build pure).Gives (.fragment f) ∧
      ∀ c : Collector, ((c.run f.render).1 = "" ↔ plan.meaning.leaves = []) ∧
        ((c.run f.render).1 ≠ "" →
          ∃ (s : String) (e : Expression), (c.run f.render).1 = plan.lead ++ s ∧
            Expression.read s = some e ∧
            e.leaves = (c.run (renderConditions plan.meaning.leaves)).1 ∧
            ∀ v : Nat → Bool, plan.meaning.value v 0 = some (e.value v 0)) := by
  have h_leaves : ∀ condition ∈ plan.leaves, ∃ built,
      (pure condition : Logged Condition).Gives built ∧ built.Plays condition.role := by
    intro condition h_condition
    refine ⟨condition, Logged.gives_pure condition, ?_, rfl⟩
    have h_isPlain := h_plain condition h_condition
    cases condition with
    | text _ | comparison _ _ | columns _ => rfl
    | fragment f => cases h_isPlain
  obtain ⟨condition, h_gives, h_plays⟩ := plan.gives_build h_leaves (isFilled_of_isTree h_tree)
  have h_root : ∀ condition, plan ≠ .leaf condition := by
    intro condition h_eq
    rw [h_eq] at h_tree
    cases h_tree
  obtain ⟨f, rfl⟩ := Plan.exists_fragment_of_gives h_root h_gives
  have h_outline : f.outline = (plan.role (.outlines Condition.role)).whole := h_plays.outline_eq
  obtain ⟨o, h_means, h_blank, h_text⟩ := Plan.exists_means h_tree h_plain
  refine ⟨f, h_gives, ?_⟩
  intro c
  have h_run : (c.run f.render).1
      = (plan.role (.outlines Condition.role)).whole.sql c.style c.values.size := by
    rw [f.binds_outline h_plays.plain c, h_outline]
  -- The tree has a text if the outline that means it has one.
  have h_empty : (c.run f.render).1 = "" ↔ o.isBlank = true := by
    rw [h_run]
    refine ⟨fun h_sql => ?_, fun h_o => (Outline.sql_eq_empty_iff _ _ _).mpr (h_blank h_o)⟩
    rw [← Bool.not_eq_false]
    intro h_o
    rw [h_text h_o, String.append_eq_empty_iff, Outline.sql_eq_empty_iff, h_o] at h_sql
    exact Bool.false_ne_true h_sql.2
  refine ⟨h_empty.trans h_means.isBlank_iff, fun h_some => ?_⟩
  have h_o : o.isBlank = false := by
    rw [← Bool.not_eq_true, ← h_empty]
    exact h_some
  obtain ⟨e, h_reads, h_found, h_value⟩ := h_means.reads h_o c.style c.values.size
  refine ⟨o.sql c.style c.values.size, .group [[e]], ?_, h_reads.read, ?_, ?_⟩
  · rw [h_run]
    exact h_text h_o c.style c.values.size
  · rw [run_renderConditions h_means.contributes, ← h_found]
    show (e.leaves ++ []) ++ [] = e.leaves
    rw [List.append_nil, List.append_nil]
  · intro v
    rw [h_value]
    show some (e.value v 0) = some ((e.value v 0 && true) || false)
    rw [Bool.and_true, Bool.or_false]

/-- A disjunction of a column map, an empty list and a comparison that drops out, beside
    a text, under a WHERE. -/
theorem Plan.exists_read_of_build_disjunction :
    let m : ColumnMap := { entries := #[("a", some .null), ("b", none), ("c", some (.int 1))] }
    let plan : Plan Condition := .filtered
      [.leaf (.text "x < y"), .group .or [.leaf (.columns m),
        .leaf (.comparison "d NOT IN" (some (.list []))), .leaf (.comparison "e =" none)]]
    plan.isTree = true ∧ (∀ condition ∈ plan.leaves, condition.isPlain = true) ∧
      ∃ f : Fragment, (plan.build pure).Gives (.fragment f) ∧
        (Collector.run ⟨.positional, #[]⟩ f.render).1
          = "WHERE ( x < y AND ( ( a = $1 AND c = $2 ) OR d NOT IN ( NULL ) ) )" ∧
        ∀ c : Collector, (c.run f.render).1 ≠ "" ∧
          ∃ (s : String) (e : Expression), (c.run f.render).1 = plan.lead ++ s ∧
            Expression.read s = some e ∧
            e.leaves = (c.run (renderConditions plan.meaning.leaves)).1 ∧
            ∀ v : Nat → Bool, plan.meaning.value v 0 = some (e.value v 0) := by
  intro m plan
  have h_plain : ∀ condition ∈ plan.leaves, condition.isPlain = true := by
    have h_leaves : plan.leaves = [.text "x < y", .columns m,
        .comparison "d NOT IN" (some (.list [])), .comparison "e =" none] := rfl
    intro condition h_condition
    rw [h_leaves, List.mem_cons, List.mem_cons, List.mem_cons, List.mem_singleton] at h_condition
    rcases h_condition with rfl | rfl | rfl | rfl
    · show Text.isPlain "x < y" = true
      decide
    · show ([("a", some .null), ("b", none), ("c", some (.int 1))] :
        List (String × Option Value)).all (Text.isPlain ·.1) = true
      decide
    · show Text.isPlain "d NOT IN" = true
      decide
    · show Text.isPlain "e =" = true
      decide
  obtain ⟨f, h_gives, h_read⟩ := plan.exists_read_of_build rfl h_plain
  have h_leaf : plan.meaning.leaves ≠ [] := nofun
  have h_build : (plan.build pure).outcome #[] = (.ok (.fragment _), #[]) := rfl
  cases (h_gives #[]).symm.trans h_build
  refine ⟨rfl, h_plain, _, h_gives, ?_, fun c => ?_⟩
  · decide
  · obtain ⟨h_empty, h_found⟩ := h_read c
    have h_some := h_empty.not.mpr h_leaf
    exact ⟨h_some, h_found h_some⟩

end SqlCompose
