/-
  SqlCompose.Proofs.Plan

  Plans: conjunctions, disjunctions and WHERE clauses over leaves, nested to any
  depth, as a program writes them down. `Plan.build` makes the condition of a plan
  with the functions that programs call, and is refused where one of them refuses.

  What a condition becomes depends on where it stands: a column map is spliced into
  a conjunction, stays a group of its own in a disjunction, and a fragment that is
  the only condition of a WHERE clause is used as it is. A `Role` holds the three
  answers, and `Plan.role` computes them bottom-up for any `Target`, that is, for any
  notion of group and WHERE clause.

    * `related_role`  -- two targets whose operations keep a relation give related
                         roles to every plan over related leaves;
    * `gives_build`   -- the condition that is built has the role that the plan has
                         for outlines;
    * `binds_role`    -- and it binds what its leaves bind, from left to right.
-/
import Mathlib.Data.List.Forall2
import SqlCompose.Fragment.Clauses
import SqlCompose.Proofs.Outline.Render

namespace SqlCompose

/-! ## Plans -/

/-- Groups and WHERE clauses over leaves. -/
inductive Plan (α : Type) where
  /-- A leaf. -/
  | leaf (a : α)
  /-- The conjunction or disjunction of plans. -/
  | group (connective : Connective) (plans : List (Plan α))
  /-- The WHERE clause over plans. -/
  | filtered (plans : List (Plan α))

/-- The conjunction or the disjunction of conditions. -/
def Connective.group : Connective → List Condition → Fragment
  | .and => Condition.and
  | .or => Condition.or

namespace Plan

variable {α : Type}

mutual

/-- The condition of a plan, whose leaves are built by `leaf`, from left to right. -/
def build (leaf : α → Logged Condition) : Plan α → Logged Condition
  | .leaf a => leaf a
  | .group connective plans => do
    let conditions ← buildAll leaf plans
    return .fragment (connective.group conditions)
  | .filtered plans => do
    let conditions ← buildAll leaf plans
    let f ← Fragment.whereClause conditions
    return .fragment f

def buildAll (leaf : α → Logged Condition) : List (Plan α) → Logged (List Condition)
  | [] => return []
  | plan :: rest => do
    let condition ← build leaf plan
    let conditions ← buildAll leaf rest
    return condition :: conditions

end

mutual

/-- The leaves of a plan, from left to right. -/
def leaves : Plan α → List α
  | .leaf a => [a]
  | .group _ plans => leavesAll plans
  | .filtered plans => leavesAll plans

def leavesAll : List (Plan α) → List α
  | [] => []
  | plan :: rest => leaves plan ++ leavesAll rest

end

end Plan

/-! ## Roles -/

/-- What a condition is in the places where it can stand. -/
structure Role (X : Type) where
  /-- On its own, or in a disjunction. -/
  whole : X
  /-- In a conjunction, where it may be several. -/
  spliced : List X
  /-- As the only condition of a WHERE clause. -/
  only : X

namespace Role

variable {X Y : Type}

/-- The role of what is the same everywhere. -/
def single (x : X) : Role X := ⟨x, [x], x⟩

/-- What a condition is in a group. -/
def parts (connective : Connective) (r : Role X) : List X :=
  match connective with
  | .and => r.spliced
  | .or => [r.whole]

/-- Roles that are related in every place. -/
structure Related (R : X → Y → Prop) (r : Role X) (s : Role Y) : Prop where
  whole : R r.whole s.whole
  spliced : List.Forall₂ R r.spliced s.spliced
  only : R r.only s.only

theorem Related.parts {R : X → Y → Prop} {r : Role X} {s : Role Y} (h : Related R r s)
    (connective : Connective) : List.Forall₂ R (r.parts connective) (s.parts connective) := by
  cases connective with
  | and => exact h.spliced
  | or => exact .cons h.whole .nil

theorem related_single {R : X → Y → Prop} {x : X} {y : Y} (h : R x y) :
    Related R (single x) (single y) := ⟨h, .cons h .nil, h⟩

end Role

/-- A notion of leaf, group and WHERE clause. -/
structure Target (α X : Type) where
  leaf : α → Role X
  group : Connective → List X → X
  filtered : X → X

/-- What a WHERE clause over conditions with the given roles is about. -/
def Target.over {α X : Type} (T : Target α X) : List (Role X) → X
  | [r] => r.only
  | rs => T.group .and (rs.flatMap (·.parts .and))

/-- What holds of only conditions and of the conjunction holds of what a WHERE clause is
    about. -/
theorem Target.over_of_forall₂ {α X B : Type} {T : Target α X} {S : Role X → B → Prop}
    {Q : X → List B → Prop} {rs : List (Role X)} {bs : List B} (h : List.Forall₂ S rs bs)
    (h_only : ∀ r b, S r b → Q r.only [b])
    (h_group : Q (T.group .and (rs.flatMap (·.parts .and))) bs) : Q (T.over rs) bs := by
  cases h with
  | nil => exact h_group
  | cons h_first h_rest =>
      cases h_rest with
      | nil => exact h_only _ _ h_first
      | cons h_second h_more => exact h_group

namespace Plan

variable {α X Y : Type}

mutual

/-- The role of a plan. -/
def role (T : Target α X) : Plan α → Role X
  | .leaf a => T.leaf a
  | .group connective plans =>
    .single (T.group connective ((roles T plans).flatMap (·.parts connective)))
  | .filtered plans => .single (T.filtered (T.over (roles T plans)))

def roles (T : Target α X) : List (Plan α) → List (Role X)
  | [] => []
  | plan :: rest => role T plan :: roles T rest

end

end Plan

/-! ## Two targets -/

/-- Two targets whose operations keep a relation. -/
structure Target.Related {α X Y : Type} (R : X → Y → Prop) (T : Target α X) (U : Target α Y) :
    Prop where
  group : ∀ connective xs ys, List.Forall₂ R xs ys → R (T.group connective xs) (U.group connective ys)
  filtered : ∀ x y, R x y → R (T.filtered x) (U.filtered y)

section Related

variable {α X Y : Type} {R : X → Y → Prop} {T : Target α X} {U : Target α Y}

theorem Target.Related.over (h : Target.Related R T U) {rs : List (Role X)} {ss : List (Role Y)}
    (h_roles : List.Forall₂ (Role.Related R) rs ss) : R (T.over rs) (U.over ss) := by
  have h_group := h.group .and _ _ (List.rel_flatMap h_roles fun _ _ h_role => h_role.parts .and)
  -- A single condition plays the role of an only one; otherwise there is a conjunction.
  cases h_roles with
  | nil => exact h_group
  | cons h_first h_rest =>
      cases h_rest with
      | nil => exact h_first.only
      | cons h_second h_more => exact h_group

mutual

/-- Related leaves give a plan related roles. -/
theorem Plan.related_role (h : Target.Related R T U) :
    (plan : Plan α) → (∀ a ∈ plan.leaves, Role.Related R (T.leaf a) (U.leaf a)) →
      Role.Related R (plan.role T) (plan.role U)
  | .leaf a, h_leaves => by
      rw [Plan.role, Plan.role]
      exact h_leaves a (by simp [Plan.leaves])
  | .group connective plans, h_leaves => by
      rw [Plan.leaves] at h_leaves
      rw [Plan.role, Plan.role]
      have h_roles := Plan.related_roles h plans h_leaves
      refine Role.related_single (h.group connective _ _ ?_)
      exact List.rel_flatMap h_roles fun _ _ h_role => h_role.parts connective
  | .filtered plans, h_leaves => by
      rw [Plan.leaves] at h_leaves
      rw [Plan.role, Plan.role]
      have h_roles := Plan.related_roles h plans h_leaves
      exact Role.related_single (h.filtered _ _ (h.over h_roles))

theorem Plan.related_roles (h : Target.Related R T U) :
    (plans : List (Plan α)) →
      (∀ a ∈ Plan.leavesAll plans, Role.Related R (T.leaf a) (U.leaf a)) →
      List.Forall₂ (Role.Related R) (Plan.roles T plans) (Plan.roles U plans)
  | [], _ => by
      rw [Plan.roles, Plan.roles]
      exact .nil
  | plan :: rest, h_leaves => by
      rw [Plan.leavesAll] at h_leaves
      rw [Plan.roles, Plan.roles]
      refine .cons (Plan.related_role h plan ?_) (Plan.related_roles h rest ?_)
      · exact fun a h_a => h_leaves a (List.mem_append_left _ h_a)
      · exact fun a h_a => h_leaves a (List.mem_append_right _ h_a)

end

end Related

/-! ## One target -/

theorem forall_mem_of_forall₂ {X : Type} {P : X → Prop} {xs ys : List X}
    (h : List.Forall₂ (fun x _ => P x) xs ys) : ∀ x ∈ xs, P x := by
  induction h with
  | nil => simp
  | cons h_first _ ih =>
      intro x h_x
      rcases List.mem_cons.mp h_x with rfl | h_x
      · exact h_first
      · exact ih x h_x

/-- What meets `P` wherever it stands. -/
def Role.All {X : Type} (P : X → Prop) (r : Role X) : Prop :=
  Role.Related (fun x (_ : X) => P x) r r

theorem Role.all_single {X : Type} {P : X → Prop} {x : X} (h : P x) :
    (Role.single x).All P := Role.related_single h

theorem Role.all_iff {X : Type} {P : X → Prop} {r : Role X} :
    r.All P ↔ P r.whole ∧ (∀ x ∈ r.spliced, P x) ∧ P r.only := by
  constructor
  · intro h
    exact ⟨h.whole, forall_mem_of_forall₂ h.spliced, h.only⟩
  · rintro ⟨h_whole, h_spliced, h_only⟩
    refine ⟨h_whole, ?_, h_only⟩
    rw [List.forall₂_same]
    exact h_spliced

/-- What the leaves of a plan meet and groups and WHERE clauses keep, the plan meets. -/
theorem Plan.all_role {α X : Type} {P : X → Prop} {T : Target α X}
    (h_group : ∀ connective xs, (∀ x ∈ xs, P x) → P (T.group connective xs))
    (h_filtered : ∀ x, P x → P (T.filtered x)) (plan : Plan α)
    (h_leaves : ∀ a ∈ plan.leaves, (T.leaf a).All P) : (plan.role T).All P := by
  refine Plan.related_role ⟨?_, fun x _ h => h_filtered x h⟩ plan h_leaves
  intro connective xs ys h
  exact h_group connective xs (forall_mem_of_forall₂ h)

/-! ## Conditions that are built -/

/-- What a WHERE clause over conditions is about. -/
def Fragment.over : List Condition → Fragment
  | [.fragment f] => f
  | conditions => Condition.and conditions

/-- The role of a condition, as outlines. -/
def Condition.role (condition : Condition) : Role Outline :=
  ⟨condition.outline, condition.spliced.map Condition.outline,
    (Fragment.over [condition]).outline⟩

/-- Groups and WHERE clauses of outlines, over leaves with the given roles. -/
def Target.outlines {α : Type} (leaf : α → Role Outline) : Target α Outline :=
  ⟨leaf, Connective.outline, Outline.filtered⟩

/-- The computation gives `a` and reports nothing. -/
def Logged.Gives {α : Type} (x : Logged α) (a : α) : Prop :=
  ∀ events : Array Event, x.outcome events = (.ok a, events)

theorem Logged.gives_pure {α : Type} (a : α) : (pure a : Logged α).Gives a := by
  intro events
  rw [Logged.outcome_pure]

/-- The computation is refused with `error` and reports nothing but this. -/
def Logged.Refuses {α : Type} (x : Logged α) (error : ComposeError) : Prop :=
  ∀ events : Array Event, x.outcome events = (.error error, events.push (.refused error))

theorem Logged.refuses_refuse {α : Type} (error : ComposeError) :
    (Logged.refuse error : Logged α).Refuses error := by
  intro events
  rw [Logged.outcome_refuse]

theorem Logged.Refuses.not_gives {α : Type} {x : Logged α} {error : ComposeError}
    (h : x.Refuses error) (a : α) : ¬x.Gives a := by
  intro h_gives
  have h_outcome := (h #[]).symm.trans (h_gives #[])
  simp at h_outcome

theorem Logged.Gives.bind {α β : Type} {x : Logged α} {f : α → Logged β} {a : α} {b : β}
    (hx : x.Gives a) (hf : (f a).Gives b) : (x >>= f).Gives b := by
  intro events
  rw [Logged.outcome_bind, hx events]
  exact hf events

/-- A computation that succeeds in a sequence, and what comes after it. -/
theorem Logged.of_outcome_bind {α β : Type} {x : Logged α} {f : α → Logged β}
    {events after : Array Event} {b : β} (h : (x >>= f).outcome events = (.ok b, after)) :
    ∃ a between, x.outcome events = (.ok a, between) ∧
      (f a).outcome between = (.ok b, after) := by
  rw [Logged.outcome_bind] at h
  cases h_first : x.outcome events with
  | mk result between =>
      rw [h_first] at h
      cases result with
      | error cause => simp at h
      | ok a => exact ⟨a, between, rfl, h⟩

/-- A WHERE clause over some conditions is not refused. -/
theorem Fragment.gives_whereClause {conditions : List Condition} (h : conditions ≠ []) :
    (Fragment.whereClause conditions).Gives (.filtered (Fragment.over conditions)) := by
  unfold Fragment.whereClause Fragment.over
  split
  · exact absurd rfl h
  · exact Logged.gives_pure _
  · split
    · rename_i f _ h_fragment
      exact (h_fragment f rfl).elim
    · exact Logged.gives_pure _

theorem Connective.outline_group (connective : Connective) (conditions : List Condition) :
    (connective.group conditions).outline
      = connective.outline ((conditions.map Condition.role).flatMap (·.parts connective)) := by
  rw [List.flatMap_map]
  cases connective with
  | and =>
      rw [Connective.group, Condition.and, Fragment.outline, conditionOutlines_eq_map,
        List.map_flatMap]
      rfl
  | or =>
      rw [Connective.group, Condition.or, Fragment.outline, conditionOutlines_eq_map,
        ← List.flatMap_singleton' (conditions.map Condition.outline), List.flatMap_map]
      rfl

theorem Fragment.outline_over {α : Type} (leaf : α → Role Outline)
    (conditions : List Condition) :
    (Fragment.over conditions).outline
      = (Target.outlines leaf).over (conditions.map Condition.role) := by
  cases conditions with
  | nil => exact Connective.outline_group .and []
  | cons condition rest =>
      cases rest with
      | nil => rfl
      | cons next more =>
          have h_over : Fragment.over (condition :: next :: more)
              = Connective.and.group (condition :: next :: more) := by
            cases condition <;> rfl
          rw [h_over]
          exact Connective.outline_group .and (condition :: next :: more)

/-- Under a WHERE, what is no fragment is a conjunction of its own. -/
theorem Condition.role_eq {condition : Condition} (h : ∀ f, condition ≠ .fragment f) :
    condition.role = ⟨condition.outline, condition.spliced.map Condition.outline,
      Connective.and.outline (condition.spliced.map Condition.outline)⟩ := by
  have h_over : Fragment.over [condition] = Connective.and.group [condition] := by
    cases condition with
    | fragment f => exact absurd rfl (h f)
    | text _ | comparison _ _ | columns _ => rfl
  have h_group := Connective.outline_group .and [condition]
  rw [List.map_singleton, List.flatMap_singleton] at h_group
  rw [Condition.role, h_over, h_group]
  rfl

theorem Condition.all_role {P : Outline → Prop} {condition : Condition}
    (h : ∀ f, condition ≠ .fragment f) (h_whole : P condition.outline)
    (h_spliced : ∀ part ∈ condition.spliced, P part.outline)
    (h_group : ∀ os, (∀ o ∈ os, P o) → P (Connective.and.outline os)) :
    condition.role.All P := by
  have h_parts : ∀ o ∈ condition.spliced.map Condition.outline, P o := by
    intro o h_o
    obtain ⟨part, h_part, rfl⟩ := List.mem_map.mp h_o
    exact h_spliced part h_part
  rw [Condition.role_eq h, Role.all_iff]
  exact ⟨h_whole, h_parts, h_group _ h_parts⟩

theorem outlines_conditions (m : ColumnMap) :
    m.conditions.map Condition.outline = m.entries.toList.map ColumnMap.entryOutline := by
  rw [ColumnMap.conditions, List.map_map]
  refine List.map_congr_left ?_
  intro entry _
  rw [Function.comp_apply, Condition.outline]
  rfl

/-! ### Plain steps -/

theorem conditionsStepsAll_eq_all (p : Step → Bool) (conditions : List Condition) :
    conditionsStepsAll p conditions = conditions.all (·.stepsAll p) := by
  induction conditions with
  | nil => rfl
  | cons condition rest ih => rw [conditionsStepsAll, ih, List.all_cons]

/-- Splicing takes no fragment apart. -/
theorem Condition.stepsAll_of_mem_spliced {p : Step → Bool} {condition part : Condition}
    (h : condition.stepsAll p = true) (h_part : part ∈ condition.spliced) :
    part.stepsAll p = true := by
  cases condition with
  | columns m =>
      rw [Condition.spliced, ColumnMap.conditions] at h_part
      obtain ⟨entry, -, rfl⟩ := List.mem_map.mp h_part
      rw [Condition.stepsAll]
  | text _ | comparison _ _ | fragment _ =>
      rw [List.mem_singleton.mp h_part]
      exact h

theorem Connective.stepsAll_group {p : Step → Bool} (connective : Connective)
    {conditions : List Condition} (h : conditionsStepsAll p conditions = true) :
    (connective.group conditions).stepsAll p = true := by
  cases connective with
  | and =>
      rw [Connective.group, Condition.and, Fragment.stepsAll, conditionsStepsAll_eq_all,
        List.all_eq_true]
      rw [conditionsStepsAll_eq_all, List.all_eq_true] at h
      intro part h_part
      obtain ⟨condition, h_condition, h_spliced⟩ := List.mem_flatMap.mp h_part
      exact Condition.stepsAll_of_mem_spliced (h condition h_condition) h_spliced
  | or =>
      rw [Connective.group, Condition.or, Fragment.stepsAll]
      exact h

theorem Fragment.stepsAll_over {p : Step → Bool} {conditions : List Condition}
    (h : conditionsStepsAll p conditions = true) :
    (Fragment.over conditions).stepsAll p = true := by
  unfold Fragment.over
  split
  · rw [conditionsStepsAll, Bool.and_eq_true, Condition.stepsAll] at h
    exact h.1
  · exact Connective.stepsAll_group .and h

/-! ### Building -/

/-- The condition is written with plain steps only, and has the given role. -/
structure Condition.Plays (condition : Condition) (r : Role Outline) : Prop where
  plain : condition.stepsAll Step.isPlain = true
  role : condition.role = r

theorem Condition.Plays.outline_eq {f : Fragment} {r : Role Outline}
    (h : (Condition.fragment f).Plays r) : f.outline = r.whole := by
  rw [← h.role]
  show f.outline = (Condition.fragment f).outline
  rw [Condition.outline]

theorem Condition.plays_fragment {f : Fragment} (h : f.stepsAll Step.isPlain = true) :
    (Condition.fragment f).Plays (.single f.outline) := by
  refine ⟨h, ?_⟩
  have h_spliced : (Condition.fragment f).spliced = [.fragment f] := rfl
  rw [Condition.role, Condition.outline, h_spliced, List.map_singleton, Condition.outline]
  rfl

namespace Plan

variable {α : Type} {leaf : α → Logged Condition}

mutual

/-- Whether no WHERE clause of the plan is over nothing. -/
def isFilled : Plan α → Bool
  | .leaf _ => true
  | .group _ plans => allFilled plans
  | .filtered plans => !plans.isEmpty && allFilled plans

def allFilled : List (Plan α) → Bool
  | [] => true
  | plan :: rest => isFilled plan && allFilled rest

end

mutual

/-- If every leaf is built and has the role that `roles` gives it, the plan is built,
    unless a WHERE clause of it is over nothing, and has the role that it has for
    outlines. -/
theorem gives_build {roles : α → Role Outline} :
    (plan : Plan α) →
      (∀ a ∈ plan.leaves, ∃ condition, (leaf a).Gives condition ∧ condition.Plays (roles a)) →
      plan.isFilled = true →
      ∃ condition, (plan.build leaf).Gives condition ∧
        condition.Plays (plan.role (.outlines roles))
  | .leaf a, h_leaves, _ => by
      rw [build, Plan.role]
      exact h_leaves a (by simp [Plan.leaves])
  | .group connective plans, h_leaves, h_filled => by
      rw [Plan.leaves] at h_leaves
      rw [isFilled] at h_filled
      -- The parts are built, and their roles are all that the group depends on.
      obtain ⟨conditions, h_gives, h_plain, h_roles, -⟩ := gives_buildAll plans h_leaves h_filled
      refine ⟨.fragment (connective.group conditions), ?_, ?_⟩
      · rw [build]
        exact h_gives.bind (Logged.gives_pure _)
      · have h_plays := Condition.plays_fragment (Connective.stepsAll_group connective h_plain)
        rw [Connective.outline_group, h_roles] at h_plays
        rw [Plan.role]
        exact h_plays
  | .filtered plans, h_leaves, h_filled => by
      rw [Plan.leaves] at h_leaves
      rw [isFilled, Bool.and_eq_true] at h_filled
      obtain ⟨conditions, h_gives, h_plain, h_roles, h_length⟩ :=
        gives_buildAll plans h_leaves h_filled.2
      -- One condition for each plan, so the clause is not refused.
      have h_nonempty : conditions ≠ [] := by
        intro h_nil
        have h_empty : plans = [] := by
          rw [h_nil] at h_length
          exact List.length_eq_zero_iff.mp h_length.symm
        simp [h_empty] at h_filled
      refine ⟨.fragment (.filtered (Fragment.over conditions)), ?_, ?_⟩
      · rw [build]
        exact h_gives.bind
          ((Fragment.gives_whereClause h_nonempty).bind (Logged.gives_pure _))
      · have h_over : (Fragment.filtered (Fragment.over conditions)).stepsAll Step.isPlain
            = true := by
          rw [Fragment.stepsAll]
          exact Fragment.stepsAll_over h_plain
        have h_plays := Condition.plays_fragment h_over
        rw [Fragment.outline, Fragment.outline_over roles, h_roles] at h_plays
        rw [Plan.role]
        exact h_plays

theorem gives_buildAll {roles : α → Role Outline} :
    (plans : List (Plan α)) →
      (∀ a ∈ leavesAll plans,
        ∃ condition, (leaf a).Gives condition ∧ condition.Plays (roles a)) →
      allFilled plans = true →
      ∃ conditions, (buildAll leaf plans).Gives conditions ∧
        conditionsStepsAll Step.isPlain conditions = true ∧
        conditions.map Condition.role = Plan.roles (.outlines roles) plans ∧
        conditions.length = plans.length
  | [], _, _ => by
      rw [buildAll, Plan.roles]
      exact ⟨[], Logged.gives_pure [], rfl, rfl, rfl⟩
  | plan :: rest, h_leaves, h_filled => by
      rw [leavesAll] at h_leaves
      rw [allFilled, Bool.and_eq_true] at h_filled
      obtain ⟨condition, h_first, h_plays⟩ := gives_build plan
        (fun a h_a => h_leaves a (List.mem_append_left _ h_a)) h_filled.1
      obtain ⟨conditions, h_rest, h_plain, h_roles, h_length⟩ := gives_buildAll rest
        (fun a h_a => h_leaves a (List.mem_append_right _ h_a)) h_filled.2
      refine ⟨condition :: conditions, ?_, ?_, ?_, ?_⟩
      · rw [buildAll]
        exact h_first.bind (h_rest.bind (Logged.gives_pure _))
      · rw [conditionsStepsAll, h_plays.plain, h_plain]
        rfl
      · rw [List.map_cons, h_plays.role, h_roles, Plan.roles]
      · rw [List.length_cons, List.length_cons, h_length]

end

/-- A plan that is no leaf gives a fragment. -/
theorem exists_fragment_of_gives {plan : Plan α} {condition : Condition}
    (h_root : ∀ a, plan ≠ .leaf a) (h : (plan.build leaf).Gives condition) :
    ∃ f, condition = .fragment f := by
  cases plan with
  | leaf a => exact absurd rfl (h_root a)
  | group connective plans =>
      rw [build] at h
      obtain ⟨conditions, between, -, h_rest⟩ := Logged.of_outcome_bind (h #[])
      rw [Logged.outcome_pure] at h_rest
      simp only [Prod.mk.injEq, Except.ok.injEq] at h_rest
      exact ⟨_, h_rest.1.symm⟩
  | filtered plans =>
      rw [build] at h
      obtain ⟨conditions, between, -, h_rest⟩ := Logged.of_outcome_bind (h #[])
      obtain ⟨f, later, -, h_last⟩ := Logged.of_outcome_bind h_rest
      rw [Logged.outcome_pure] at h_last
      simp only [Prod.mk.injEq, Except.ok.injEq] at h_last
      exact ⟨_, h_last.1.symm⟩

mutual

/-- Of a plan that is built every leaf was built, and no WHERE clause is over
    nothing. -/
theorem leaves_of_outcome_build :
    (plan : Plan α) → ∀ (events after : Array Event) (condition : Condition),
      (plan.build leaf).outcome events = (.ok condition, after) →
      plan.isFilled = true ∧ ∀ a ∈ plan.leaves, ∃ before built later,
        (leaf a).outcome before = (.ok built, later)
  | .leaf b => by
      intro events after condition h
      rw [build] at h
      refine ⟨rfl, ?_⟩
      intro a h_a
      rw [Plan.leaves, List.mem_singleton] at h_a
      exact ⟨events, condition, after, h_a ▸ h⟩
  | .group connective plans => by
      intro events after condition h
      rw [build] at h
      obtain ⟨conditions, between, h_all, -⟩ := Logged.of_outcome_bind h
      rw [isFilled, Plan.leaves]
      exact leaves_of_outcome_buildAll plans _ _ _ h_all
  | .filtered plans => by
      intro events after condition h
      rw [build] at h
      obtain ⟨conditions, between, h_all, h_rest⟩ := Logged.of_outcome_bind h
      obtain ⟨f, later, h_where, -⟩ := Logged.of_outcome_bind h_rest
      obtain ⟨h_filled, h_leaves⟩ := leaves_of_outcome_buildAll plans _ _ _ h_all
      refine ⟨?_, ?_⟩
      · rw [isFilled, h_filled, Bool.and_true]
        cases plans with
        | nil =>
            -- Over nothing, the clause is refused.
            rw [buildAll, Logged.outcome_pure] at h_all
            simp only [Prod.mk.injEq, Except.ok.injEq] at h_all
            rw [← h_all.1, Fragment.whereClause, Logged.outcome_refuse] at h_where
            simp at h_where
        | cons plan rest => rfl
      · rw [Plan.leaves]
        exact h_leaves

theorem leaves_of_outcome_buildAll :
    (plans : List (Plan α)) → ∀ (events after : Array Event) (conditions : List Condition),
      (buildAll leaf plans).outcome events = (.ok conditions, after) →
      allFilled plans = true ∧ ∀ a ∈ leavesAll plans, ∃ before built later,
        (leaf a).outcome before = (.ok built, later)
  | [] => by
      intro events after conditions _
      refine ⟨rfl, ?_⟩
      intro a h_a
      simp [leavesAll] at h_a
  | plan :: rest => by
      intro events after conditions h
      rw [buildAll] at h
      obtain ⟨condition, between, h_first, h_more⟩ := Logged.of_outcome_bind h
      obtain ⟨more, later, h_rest, -⟩ := Logged.of_outcome_bind h_more
      obtain ⟨h_filled, h_leaves⟩ := leaves_of_outcome_build plan _ _ _ h_first
      obtain ⟨h_filledRest, h_leavesRest⟩ := leaves_of_outcome_buildAll rest _ _ _ h_rest
      refine ⟨?_, ?_⟩
      · rw [allFilled, h_filled, h_filledRest]
        rfl
      · intro a h_a
        rw [leavesAll, List.mem_append] at h_a
        rcases h_a with h_plan | h_rest
        · exact h_leaves a h_plan
        · exact h_leavesRest a h_rest

end

end Plan

/-! ## Values -/

/-- Wherever it stands, what has the role binds `vs`. -/
structure Role.Binds (r : Role Outline) (vs : List Value) : Prop where
  whole : r.whole.values = vs
  spliced : r.spliced.flatMap Outline.values = vs
  only : r.only.values = vs

theorem Role.binds_single (o : Outline) : (Role.single o).Binds o.values :=
  ⟨rfl, List.flatMap_singleton Outline.values o, rfl⟩

theorem Role.Binds.parts {r : Role Outline} {vs : List Value} (h : r.Binds vs)
    (connective : Connective) : (r.parts connective).flatMap Outline.values = vs := by
  cases connective with
  | and => exact h.spliced
  | or =>
      rw [Role.parts, List.flatMap_singleton]
      exact h.whole

/-- A condition binds the same values wherever it stands. -/
theorem Condition.binds_role (condition : Condition) :
    condition.role.Binds condition.outline.values := by
  -- Only a column map is taken apart, and a conjunction binds what its entries bind.
  have h_spliced : (condition.spliced.map Condition.outline).flatMap Outline.values
      = condition.outline.values := by
    cases condition with
    | columns m =>
        rw [Condition.spliced, outlines_conditions, Condition.outline, Connective.values_outline]
    | text _ | comparison _ _ | fragment _ =>
        exact List.flatMap_singleton Outline.values _
  refine ⟨rfl, h_spliced, ?_⟩
  cases condition with
  | fragment f =>
      rw [Condition.outline]
      rfl
  | text _ | comparison _ _ | columns _ =>
      rw [Condition.role_eq (fun f h => by cases h), Connective.values_outline, h_spliced]

theorem Role.values_parts {rs : List (Role Outline)} {vss : List (List Value)}
    (h : List.Forall₂ Role.Binds rs vss) (connective : Connective) :
    (rs.flatMap (·.parts connective)).flatMap Outline.values = vss.flatten := by
  induction h with
  | nil => rfl
  | cons h_first h_rest ih =>
      rw [List.flatMap_cons, List.flatMap_append, h_first.parts, ih, List.flatten_cons]

theorem Role.values_over {α : Type} {leafRoles : α → Role Outline} {rs : List (Role Outline)}
    {vss : List (List Value)} (h : List.Forall₂ Role.Binds rs vss) :
    ((Target.outlines leafRoles).over rs).values = vss.flatten := by
  refine Target.over_of_forall₂ (Q := fun o vss => o.values = vss.flatten) h ?_ ?_
  · intro r vs h_role
    rw [List.flatten_singleton]
    exact h_role.only
  · rw [← Role.values_parts h .and]
    exact Connective.values_outline .and _

namespace Plan

variable {α : Type} {leafRoles : α → Role Outline} {vs : α → List Value}

mutual

/-- A plan binds what its leaves bind, from left to right. -/
theorem binds_role : (plan : Plan α) → (∀ a ∈ plan.leaves, (leafRoles a).Binds (vs a)) →
    (plan.role (.outlines leafRoles)).Binds (plan.leaves.flatMap vs)
  | .leaf a, h_leaves => by
      rw [Plan.role, Plan.leaves, List.flatMap_singleton]
      exact h_leaves a (by simp [Plan.leaves])
  | .group connective plans, h_leaves => by
      rw [Plan.leaves] at h_leaves
      obtain ⟨vss, h_roles, h_values⟩ := binds_roles plans h_leaves
      have h_group : ((Target.outlines leafRoles).group connective
          ((Plan.roles (.outlines leafRoles) plans).flatMap (·.parts connective))).values
            = (leavesAll plans).flatMap vs := by
        rw [← h_values, ← Role.values_parts h_roles connective]
        exact Connective.values_outline connective _
      rw [Plan.role, Plan.leaves, ← h_group]
      exact Role.binds_single _
  | .filtered plans, h_leaves => by
      rw [Plan.leaves] at h_leaves
      obtain ⟨vss, h_roles, h_values⟩ := binds_roles plans h_leaves
      have h_filtered : ((Target.outlines leafRoles).filtered
          ((Target.outlines leafRoles).over (Plan.roles (.outlines leafRoles) plans))).values
            = (leavesAll plans).flatMap vs := by
        rw [← h_values, ← Role.values_over h_roles]
        exact Outline.values_filtered _
      rw [Plan.role, Plan.leaves, ← h_filtered]
      exact Role.binds_single _

theorem binds_roles : (plans : List (Plan α)) →
    (∀ a ∈ leavesAll plans, (leafRoles a).Binds (vs a)) →
    ∃ vss, List.Forall₂ Role.Binds (Plan.roles (.outlines leafRoles) plans) vss ∧
      vss.flatten = (leavesAll plans).flatMap vs
  | [], _ => by
      rw [Plan.roles, leavesAll]
      exact ⟨[], .nil, rfl⟩
  | plan :: rest, h_leaves => by
      rw [leavesAll] at h_leaves
      have h_first := binds_role plan fun a h_a => h_leaves a (List.mem_append_left _ h_a)
      obtain ⟨vss, h_rest, h_values⟩ :=
        binds_roles rest fun a h_a => h_leaves a (List.mem_append_right _ h_a)
      rw [Plan.roles, leavesAll]
      refine ⟨_ :: vss, .cons h_first h_rest, ?_⟩
      rw [List.flatten_cons, h_values, List.flatMap_append]

end

end Plan

end SqlCompose
