/-
  SqlCompose.Proofs.Vacuous.Plan

  Plans that contribute nothing, told from their leaves: nothing but vacuous leaves
  stands in their groups and WHERE clauses (`Plan.isVacuous`). Of a plan that is built
  these are the ones that are blank, wherever they stand (`Plan.IsBuilt.blank`), by
  induction on the plan from its leaves.

  `Plan.IsBuilt` says that a program can make the condition of a plan at all. That is
  so if its parts are built and no WHERE clause is over nothing (`Plan.isBuilt_group`,
  `Plan.isBuilt_filtered`), and so it is for every vacuous plan.
-/
import SqlCompose.Proofs.Vacuous.Leaf

namespace SqlCompose

/-! ## Vacuous plans -/

namespace Plan

mutual

/-- Whether a plan contributes nothing, by its leaves. -/
def isVacuous : Plan Leaf → Bool
  | .leaf a => a.isVacuous
  | .group _ plans => allVacuous plans
  -- Over nothing, a WHERE clause is refused.
  | .filtered plans => !plans.isEmpty && allVacuous plans

def allVacuous : List (Plan Leaf) → Bool
  | [] => true
  | plan :: rest => isVacuous plan && allVacuous rest

end

mutual

/-- A vacuous plan has vacuous leaves only, and no WHERE clause of it is over nothing. -/
theorem leaves_of_isVacuous : (plan : Plan Leaf) → plan.isVacuous = true →
    plan.isFilled = true ∧ ∀ leaf ∈ plan.leaves, leaf.isVacuous = true
  | .leaf a, h => by
      refine ⟨rfl, ?_⟩
      intro leaf h_leaf
      rw [leaves, List.mem_singleton] at h_leaf
      rw [h_leaf]
      exact h
  | .group connective plans, h => by
      rw [isFilled, leaves]
      exact leaves_of_allVacuous plans h
  | .filtered plans, h => by
      rw [isVacuous, Bool.and_eq_true] at h
      obtain ⟨h_filled, h_leaves⟩ := leaves_of_allVacuous plans h.2
      rw [isFilled, leaves, h.1, h_filled]
      exact ⟨rfl, h_leaves⟩

theorem leaves_of_allVacuous : (plans : List (Plan Leaf)) → allVacuous plans = true →
    allFilled plans = true ∧ ∀ leaf ∈ leavesAll plans, leaf.isVacuous = true
  | [], _ => ⟨rfl, fun leaf h_leaf => absurd h_leaf (by simp [leavesAll])⟩
  | plan :: rest, h => by
      rw [allVacuous, Bool.and_eq_true] at h
      obtain ⟨h_filled, h_leaves⟩ := leaves_of_isVacuous plan h.1
      obtain ⟨h_filledRest, h_leavesRest⟩ := leaves_of_allVacuous rest h.2
      rw [allFilled, leavesAll, h_filled, h_filledRest]
      refine ⟨rfl, ?_⟩
      intro leaf h_leaf
      rcases List.mem_append.mp h_leaf with h_leaf | h_leaf
      · exact h_leaves leaf h_leaf
      · exact h_leavesRest leaf h_leaf

end

end Plan

/-! ### Blank roles -/

theorem Role.all_isBlank_parts {rs : List (Role Outline)} {bs : List Bool}
    (h : List.Forall₂ Role.Blank rs bs) (connective : Connective) :
    (rs.flatMap (·.parts connective)).all Outline.isBlank = bs.all id := by
  induction h with
  | nil => rfl
  | cons h_first h_rest ih =>
      rw [List.flatMap_cons, List.all_append, h_first.parts, ih, List.all_cons]
      rfl

theorem Role.isBlank_over {rs : List (Role Outline)} {bs : List Bool}
    (h : List.Forall₂ Role.Blank rs bs) :
    ((Target.outlines Leaf.outlines).over rs).isBlank = bs.all id := by
  refine Target.over_of_forall₂ (Q := fun o bs => o.isBlank = bs.all id) h ?_ ?_
  · intro r b h_role
    rw [List.all_cons, List.all_nil, Bool.and_true]
    exact h_role.only
  · rw [← Role.all_isBlank_parts h .and]
    exact Connective.isBlank_outline .and _

namespace Plan

mutual

/-- A plan over leaves that are built is blank, wherever it stands, if it is vacuous,
    and only then. -/
theorem blank_role : (plan : Plan Leaf) → (∀ leaf ∈ plan.leaves, leaf.IsBuilt) →
    plan.isFilled = true → (plan.role (.outlines Leaf.outlines)).Blank plan.isVacuous
  | .leaf a, h_leaves, _ => by
      rw [role, isVacuous]
      exact Leaf.blank_outlines (h_leaves a (by simp [leaves]))
  | .group connective plans, h_leaves, h_filled => by
      rw [leaves] at h_leaves
      rw [isFilled] at h_filled
      obtain ⟨bs, h_roles, h_vacuous⟩ := blank_roles plans h_leaves h_filled
      rw [role, isVacuous, ← h_vacuous]
      apply Role.blank_single
      rw [← Role.all_isBlank_parts h_roles connective]
      exact connective.isBlank_outline _
  | .filtered plans, h_leaves, h_filled => by
      rw [leaves] at h_leaves
      rw [isFilled, Bool.and_eq_true] at h_filled
      obtain ⟨bs, h_roles, h_vacuous⟩ := blank_roles plans h_leaves h_filled.2
      rw [role, isVacuous, h_filled.1, Bool.true_and, ← h_vacuous]
      apply Role.blank_single
      rw [← Role.isBlank_over h_roles]
      exact Outline.isBlank_filtered _

theorem blank_roles : (plans : List (Plan Leaf)) → (∀ leaf ∈ leavesAll plans, leaf.IsBuilt) →
    allFilled plans = true →
    ∃ bs, List.Forall₂ Role.Blank (roles (.outlines Leaf.outlines) plans) bs ∧
      bs.all id = allVacuous plans
  | [], _, _ => by
      rw [roles]
      exact ⟨[], .nil, rfl⟩
  | plan :: rest, h_leaves, h_filled => by
      rw [leavesAll] at h_leaves
      rw [allFilled, Bool.and_eq_true] at h_filled
      have h_first := blank_role plan (fun leaf h => h_leaves leaf (List.mem_append_left _ h))
        h_filled.1
      obtain ⟨bs, h_rest, h_vacuous⟩ := blank_roles rest
        (fun leaf h => h_leaves leaf (List.mem_append_right _ h)) h_filled.2
      rw [roles, allVacuous, ← h_vacuous]
      exact ⟨_ :: bs, .cons h_first h_rest, rfl⟩

end

/-! ## Plans that are built -/

/-- No function that the plan calls refuses. -/
def IsBuilt (plan : Plan Leaf) : Prop := ∃ condition, (plan.build Leaf.build).Gives condition

theorem isBuilt_of_outcome {plan : Plan Leaf} {condition : Condition} {events after : Array Event}
    (h : (plan.build Leaf.build).outcome events = (.ok condition, after)) : plan.IsBuilt :=
  ⟨condition, (plays_of_outcome_build (fun leaf => leaf) h).1⟩

theorem isBuilt_iff {plan : Plan Leaf} :
    plan.IsBuilt ↔ plan.isFilled = true ∧ ∀ leaf ∈ plan.leaves, leaf.IsBuilt := by
  constructor
  · rintro ⟨condition, h_gives⟩
    obtain ⟨h_filled, h_leaves⟩ := leaves_of_outcome_build plan _ _ _ (h_gives #[])
    refine ⟨h_filled, ?_⟩
    intro leaf h_leaf
    obtain ⟨before, built, later, h_built⟩ := h_leaves leaf h_leaf
    exact ⟨built, (Leaf.plays_of_outcome_build h_built).1⟩
  · rintro ⟨h_filled, h_leaves⟩
    have h_plays : ∀ leaf ∈ plan.leaves, ∃ condition,
        leaf.build.Gives condition ∧ condition.Plays leaf.outlines := by
      intro leaf h_leaf
      obtain ⟨condition, h_gives⟩ := h_leaves leaf h_leaf
      exact ⟨condition, Leaf.plays_of_outcome_build (h_gives #[])⟩
    obtain ⟨condition, h_gives, -⟩ := plan.gives_build h_plays h_filled
    exact ⟨condition, h_gives⟩

theorem allFilled_iff {plans : List (Plan Leaf)} :
    allFilled plans = true ↔ ∀ plan ∈ plans, plan.isFilled = true := by
  induction plans with
  | nil => simp [allFilled]
  | cons plan rest ih => rw [allFilled, Bool.and_eq_true, ih, List.forall_mem_cons]

theorem leavesAll_eq_flatMap (plans : List (Plan Leaf)) :
    leavesAll plans = plans.flatMap leaves := by
  induction plans with
  | nil => rfl
  | cons plan rest ih => rw [leavesAll, ih, List.flatMap_cons]

theorem isBuilt_all_iff {plans : List (Plan Leaf)} :
    (allFilled plans = true ∧ ∀ leaf ∈ leavesAll plans, leaf.IsBuilt)
      ↔ ∀ plan ∈ plans, plan.IsBuilt := by
  rw [allFilled_iff, leavesAll_eq_flatMap, List.forall_mem_flatMap, ← forall₂_and]
  simp only [isBuilt_iff]

/-- A group is built if its parts are. -/
theorem isBuilt_group {connective : Connective} {plans : List (Plan Leaf)} :
    (Plan.group connective plans).IsBuilt ↔ ∀ plan ∈ plans, plan.IsBuilt := by
  rw [isBuilt_iff, isFilled, leaves]
  exact isBuilt_all_iff

/-- A WHERE clause is built if its parts are and there are some. -/
theorem isBuilt_filtered {plans : List (Plan Leaf)} :
    (Plan.filtered plans).IsBuilt ↔ plans ≠ [] ∧ ∀ plan ∈ plans, plan.IsBuilt := by
  rw [isBuilt_iff, isFilled, leaves, Bool.and_eq_true, and_assoc, isBuilt_all_iff]
  simp

theorem isBuilt_of_isVacuous {plan : Plan Leaf} (h : plan.isVacuous = true) : plan.IsBuilt := by
  obtain ⟨h_filled, h_leaves⟩ := leaves_of_isVacuous plan h
  rw [isBuilt_iff]
  exact ⟨h_filled, fun leaf h_leaf => Leaf.isBuilt_of_isVacuous (h_leaves leaf h_leaf)⟩

theorem IsBuilt.blank {plan : Plan Leaf} (h : plan.IsBuilt) :
    (plan.role (.outlines Leaf.outlines)).Blank plan.isVacuous := by
  obtain ⟨h_filled, h_leaves⟩ := isBuilt_iff.mp h
  exact plan.blank_role h_leaves h_filled

end Plan

end SqlCompose
