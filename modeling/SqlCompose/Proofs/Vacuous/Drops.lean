/-
  SqlCompose.Proofs.Vacuous.Drops

  Optional conditions drop out. Of every condition that is built the following holds
  (`Plan.render_vacuous`).

    * It contributes nothing if and only if its plan is vacuous, and then it leaves the
      collector as it is.
    * Vacuous plans can be left out of the groups of its plan or be put into them, at
      any depth: the fragment writes the same text and binds the same values, on every
      collector.

  `Plan.Drops` is one such change. What it keeps is `Plan.Agrees`: whether the plan is
  built, and its role among outlines, on which everything depends that is written or
  bound. A group has no place for a blank outline, so a vacuous part leaves no trace in
  it (`Connective.outline_append_blank`).

  A WHERE clause over several conditions is about their conjunction, from which vacuous
  ones drop out as well. Over a single fragment it is about this fragment, without
  parentheses, so there another condition can be seen even if it is vacuous.
-/
import Mathlib.Logic.Relation
import SqlCompose.Proofs.Vacuous.Plan

namespace SqlCompose

/-! ## Groups -/

theorem Connective.outline_append_blank (connective : Connective) {blanks : List Outline}
    (h : blanks.all Outline.isBlank = true) (os ps : List Outline) :
    connective.outline (os ++ (blanks ++ ps)) = connective.outline (os ++ ps) := by
  have h_none : blanks.filter (!Outline.isBlank ·) = [] := by
    rw [List.filter_eq_nil_iff]
    rw [List.all_eq_true] at h
    intro o h_o
    simp [h o h_o]
  have h_kept : (os ++ (blanks ++ ps)).filter (!Outline.isBlank ·)
      = (os ++ ps).filter (!Outline.isBlank ·) := by
    rw [List.filter_append, List.filter_append, List.filter_append, h_none, List.nil_append]
  rw [Connective.outline, Connective.outline, h_kept]

/-- Whether a leaf is a fragment. -/
def Leaf.isFragment : Leaf → Bool
  | .text _ | .comparison .. | .columns _ | .document _ => false
  | .row _ | .assignments _ | .select _ | .bound .. | .raw _ => true

/-- As the only condition, what is no fragment is a conjunction of its own. -/
theorem Leaf.only_outlines {leaf : Leaf} (h : leaf.isFragment = false) :
    leaf.outlines.only = Connective.and.outline leaf.outlines.spliced := by
  cases leaf with
  | text _ | comparison _ _ | columns _ =>
      rw [outlines, Condition.role_eq (fun f h_f => by cases h_f)]
  | document d => rfl
  | row _ | assignments _ | select _ | bound _ _ | raw _ => cases h

namespace Plan

theorem roles_eq_map {α X : Type} (T : Target α X) (plans : List (Plan α)) :
    roles T plans = plans.map (role T) := by
  induction plans with
  | nil => rfl
  | cons plan rest ih => rw [roles, ih, List.map_cons]

/-- What plans are in a group. -/
def parts (connective : Connective) (plans : List (Plan Leaf)) : List Outline :=
  (roles (.outlines Leaf.outlines) plans).flatMap (·.parts connective)

theorem parts_append (connective : Connective) (plans others : List (Plan Leaf)) :
    parts connective (plans ++ others) = parts connective plans ++ parts connective others := by
  rw [parts, parts, parts, roles_eq_map, roles_eq_map, roles_eq_map, List.map_append,
    List.flatMap_append]

/-- A vacuous plan leaves no trace in a group. -/
theorem outline_parts_drop (connective : Connective) (before after : List (Plan Leaf))
    {plan : Plan Leaf} (h : plan.isVacuous = true) :
    connective.outline (parts connective (before ++ plan :: after))
      = connective.outline (parts connective (before ++ after)) := by
  have h_blank := (isBuilt_of_isVacuous h).blank.parts connective
  rw [h] at h_blank
  have h_parts : parts connective (plan :: after)
      = (plan.role (.outlines Leaf.outlines)).parts connective ++ parts connective after := rfl
  rw [parts_append, parts_append, h_parts, connective.outline_append_blank h_blank]

/-- Whether a plan gives a fragment. -/
def isFragment : Plan Leaf → Bool
  | .leaf a => a.isFragment
  | .group .. | .filtered _ => true

/-- Whether a WHERE clause over the plans is about their conjunction: there are several,
    or the only one is no fragment. -/
def areJoined : List (Plan Leaf) → Bool
  | [] => false
  | [plan] => !plan.isFragment
  | _ :: _ :: _ => true

theorem over_of_areJoined {plans : List (Plan Leaf)} (h : areJoined plans = true) :
    (Target.outlines Leaf.outlines).over (roles (.outlines Leaf.outlines) plans)
      = Connective.and.outline (parts .and plans) := by
  cases plans with
  | nil => cases h
  | cons plan rest =>
      cases rest with
      | cons next more => rfl
      | nil =>
          cases plan with
          | leaf a =>
              rw [areJoined, Bool.not_eq_true', isFragment] at h
              have h_parts : parts .and [.leaf a] = a.outlines.spliced :=
                List.append_nil _
              rw [h_parts]
              exact Leaf.only_outlines h
          | group _ _ => cases h
          | filtered _ => cases h

theorem areJoined_insert {before after : List (Plan Leaf)} (plan : Plan Leaf)
    (h : areJoined (before ++ after) = true) : areJoined (before ++ plan :: after) = true := by
  cases before with
  | nil =>
      cases after with
      | nil => cases h
      | cons next rest => rfl
  | cons first before =>
      cases before with
      | nil => rfl
      | cons next rest => rfl

/-! ## Leaving out -/

/-- The second plan is the first one without a vacuous plan in one of its groups. -/
inductive Drops : Plan Leaf → Plan Leaf → Prop where
  /-- From a group. -/
  | group (connective : Connective) (before after : List (Plan Leaf)) {plan : Plan Leaf}
      (h : plan.isVacuous = true) :
      Drops (.group connective (before ++ plan :: after)) (.group connective (before ++ after))
  /-- From the conjunction that a WHERE clause is about. -/
  | filtered (before after : List (Plan Leaf)) {plan : Plan Leaf} (h : plan.isVacuous = true)
      (h_joined : areJoined (before ++ after) = true) :
      Drops (.filtered (before ++ plan :: after)) (.filtered (before ++ after))
  /-- From a part of a group. -/
  | inGroup (connective : Connective) (before after : List (Plan Leaf)) {plan other : Plan Leaf}
      (h : Drops plan other) :
      Drops (.group connective (before ++ plan :: after))
        (.group connective (before ++ other :: after))
  /-- From a part of a WHERE clause. -/
  | inFiltered (before after : List (Plan Leaf)) {plan other : Plan Leaf}
      (h : Drops plan other) :
      Drops (.filtered (before ++ plan :: after)) (.filtered (before ++ other :: after))

/-- The plans are built or refused together, play the same role, and neither is a leaf
    unless it is the other one. -/
structure Agrees (plan other : Plan Leaf) : Prop where
  isBuilt : plan.IsBuilt ↔ other.IsBuilt
  role : plan.role (.outlines Leaf.outlines) = other.role (.outlines Leaf.outlines)
  root : ∀ leaf, plan = .leaf leaf ↔ other = .leaf leaf

namespace Agrees

theorem refl (plan : Plan Leaf) : plan.Agrees plan := ⟨Iff.rfl, rfl, fun _ => Iff.rfl⟩

theorem symm {plan other : Plan Leaf} (h : plan.Agrees other) : other.Agrees plan :=
  ⟨h.isBuilt.symm, h.role.symm, fun leaf => (h.root leaf).symm⟩

theorem trans {p q r : Plan Leaf} (h : p.Agrees q) (h' : q.Agrees r) : p.Agrees r :=
  ⟨h.isBuilt.trans h'.isBuilt, h.role.trans h'.role, fun leaf => (h.root leaf).trans (h'.root leaf)⟩

theorem of_group {connective : Connective} {plans others : List (Plan Leaf)}
    (h_built : (∀ plan ∈ plans, plan.IsBuilt) ↔ ∀ plan ∈ others, plan.IsBuilt)
    (h_outline : connective.outline (parts connective plans)
      = connective.outline (parts connective others)) :
    Agrees (.group connective plans) (.group connective others) := by
  refine ⟨?_, ?_, fun leaf => by simp⟩
  · rw [isBuilt_group, isBuilt_group]
    exact h_built
  · rw [Plan.role, Plan.role]
    exact congrArg Role.single h_outline

theorem of_filtered {plans others : List (Plan Leaf)} (h_some : plans ≠ []) (h_other : others ≠ [])
    (h_built : (∀ plan ∈ plans, plan.IsBuilt) ↔ ∀ plan ∈ others, plan.IsBuilt)
    (h_over : (Target.outlines Leaf.outlines).over (roles (.outlines Leaf.outlines) plans)
      = (Target.outlines Leaf.outlines).over (roles (.outlines Leaf.outlines) others)) :
    Agrees (.filtered plans) (.filtered others) := by
  refine ⟨?_, ?_, fun leaf => by simp⟩
  · rw [isBuilt_filtered, isBuilt_filtered, h_built]
    simp [h_some, h_other]
  · rw [Plan.role, Plan.role, h_over]

end Agrees

/-- What is left out is built. -/
theorem isBuilt_all_drop (before after : List (Plan Leaf)) {plan : Plan Leaf}
    (h : plan.isVacuous = true) :
    (∀ p ∈ before ++ plan :: after, p.IsBuilt) ↔ ∀ p ∈ before ++ after, p.IsBuilt := by
  have h_built := isBuilt_of_isVacuous h
  rw [List.forall_mem_append, List.forall_mem_append, List.forall_mem_cons]
  simp [h_built]

theorem isBuilt_all_congr (before after : List (Plan Leaf)) {plan other : Plan Leaf}
    (h : plan.IsBuilt ↔ other.IsBuilt) :
    (∀ p ∈ before ++ plan :: after, p.IsBuilt) ↔ ∀ p ∈ before ++ other :: after, p.IsBuilt := by
  rw [List.forall_mem_append, List.forall_mem_append, List.forall_mem_cons, List.forall_mem_cons, h]

theorem roles_congr (before after : List (Plan Leaf)) {plan other : Plan Leaf}
    (h : plan.role (.outlines Leaf.outlines) = other.role (.outlines Leaf.outlines)) :
    roles (.outlines Leaf.outlines) (before ++ plan :: after)
      = roles (.outlines Leaf.outlines) (before ++ other :: after) := by
  rw [roles_eq_map, roles_eq_map, List.map_append, List.map_append, List.map_cons, List.map_cons, h]

theorem Drops.agrees {plan other : Plan Leaf} (h : plan.Drops other) : plan.Agrees other := by
  induction h with
  | group connective before after h =>
      exact .of_group (isBuilt_all_drop before after h)
        (outline_parts_drop connective before after h)
  | filtered before after h h_joined =>
      have h_some : before ++ after ≠ [] := by
        intro h_nil
        rw [h_nil] at h_joined
        cases h_joined
      refine .of_filtered (by simp) h_some (isBuilt_all_drop before after h) ?_
      rw [over_of_areJoined h_joined, over_of_areJoined (areJoined_insert _ h_joined)]
      exact outline_parts_drop .and before after h
  | inGroup connective before after _ ih =>
      refine .of_group (isBuilt_all_congr before after ih.isBuilt) ?_
      rw [parts, parts, roles_congr before after ih.role]
  | inFiltered before after _ ih =>
      refine .of_filtered (by simp) (by simp) (isBuilt_all_congr before after ih.isBuilt) ?_
      rw [roles_congr before after ih.role]

/-- Plans agree if vacuous plans are left out and put in, one after the other. -/
theorem agrees_of_eqvGen {plan other : Plan Leaf} (h : Relation.EqvGen Drops plan other) :
    plan.Agrees other := by
  induction h with
  | rel plan other h => exact h.agrees
  | refl plan => exact .refl plan
  | symm plan other _ ih => exact ih.symm
  | trans p q r _ _ ih ih' => exact ih.trans ih'

/-- Where a plan gives a fragment, one that agrees with it does. -/
theorem Agrees.exists_fragment {plan other : Plan Leaf} (h : plan.Agrees other) {f : Fragment}
    (h_gives : (plan.build Leaf.build).Gives (.fragment f)) :
    ∃ g, (other.build Leaf.build).Gives (.fragment g) := by
  obtain ⟨condition, h_other⟩ := h.isBuilt.mp ⟨_, h_gives⟩
  by_cases h_root : ∃ leaf, other = .leaf leaf
  · obtain ⟨leaf, rfl⟩ := h_root
    rw [(h.root leaf).mpr rfl] at h_gives
    exact ⟨f, h_gives⟩
  · obtain ⟨g, rfl⟩ := exists_fragment_of_gives (fun a h_a => h_root ⟨a, h_a⟩) h_other
    exact ⟨g, h_other⟩

/-! ## Rendering -/

/-- A condition that is built contributes nothing if and only if its plan is vacuous, and
    then it leaves the collector as it is. Leaving vacuous plans out of groups, or
    putting them in, changes neither the text of a fragment nor what it binds. -/
theorem render_vacuous :
    (∀ (plan : Plan Leaf) (condition : Condition) (events after : Array Event),
      (plan.build Leaf.build).outcome events = (.ok condition, after) → ∀ c : Collector,
        ((c.run condition.render).1 = none ↔ plan.isVacuous = true) ∧
          (plan.isVacuous = true → (c.run condition.render).2 = c)) ∧
    ∀ (plan other : Plan Leaf) (f : Fragment) (events after : Array Event),
      (plan.build Leaf.build).outcome events = (.ok (.fragment f), after) →
      Relation.EqvGen Drops plan other →
        ∃ g, (other.build Leaf.build).Gives (.fragment g) ∧
          ∀ c : Collector, c.run g.render = c.run f.render := by
  refine ⟨?_, ?_⟩
  · intro plan condition events after h c
    obtain ⟨-, h_plays⟩ := plays_of_outcome_build (fun leaf => leaf) h
    have h_blank : condition.outline.isBlank = plan.isVacuous := by
      have h_whole := (isBuilt_of_outcome h).blank.whole
      rw [← h_plays.role] at h_whole
      exact h_whole
    have h_run : c.run condition.render
        = (if plan.isVacuous then none else some (condition.outline.sql c.style c.values.size),
            c.holding condition.outline.values) := by
      rw [← h_blank, ← nonempty_sql]
      exact condition.binds_outline h_plays.plain c
    rw [h_run]
    cases h_vacuous : plan.isVacuous with
    | false => simp
    | true =>
        rw [h_vacuous] at h_blank
        rw [Outline.values_of_isBlank h_blank, Collector.holding_nil]
        simp
  · intro plan other f events after h h_drops
    have h_agrees := agrees_of_eqvGen h_drops
    obtain ⟨h_gives, h_plays⟩ := plays_of_outcome_build (fun leaf => leaf) h
    obtain ⟨g, h_other⟩ := h_agrees.exists_fragment h_gives
    obtain ⟨-, h_otherPlays⟩ := plays_of_outcome_build (fun leaf => leaf) (h_other #[])
    have h_outline : g.outline = f.outline := by
      rw [h_plays.outline_eq, h_otherPlays.outline_eq]
      exact congrArg Role.whole h_agrees.role.symm
    refine ⟨g, h_other, ?_⟩
    intro c
    rw [g.binds_outline h_otherPlays.plain c, f.binds_outline h_plays.plain c, h_outline]

/-- A disjunction of an empty text and no bound, left out of a group. -/
theorem render_vacuous_disjunction :
    let kept : Plan Leaf := .leaf (.comparison "a =" (some (.value (.int 1))))
    let blank : Plan Leaf := .group .or [.leaf (.text ""), .leaf (.bound .limit (some 0))]
    let nothing : Condition := .fragment (.group .or [.text "", .fragment (.bound .limit (some 0))])
    let f : Fragment :=
      .filtered (.group .and [.comparison "a =" (some (.value (.int 1))), nothing])
    (blank.build Leaf.build).outcome #[] = (.ok nothing, #[]) ∧
      (∀ c : Collector, (c.run nothing.render).1 = none ∧ (c.run nothing.render).2 = c) ∧
      ((Plan.filtered [.group .and [kept, blank]]).build Leaf.build).outcome #[]
        = (.ok (.fragment f), #[]) ∧
      Relation.EqvGen Drops (.filtered [.group .and [kept, blank]])
        (.filtered [.group .and [kept]]) ∧
      ∃ g, ((Plan.filtered [.group .and [kept]]).build Leaf.build).Gives (.fragment g) ∧
        ∀ c : Collector, c.run g.render = c.run f.render := by
  intro kept blank nothing f
  have h_blank : (blank.build Leaf.build).outcome #[] = (.ok nothing, #[]) := rfl
  have h_built : ((Plan.filtered [.group .and [kept, blank]]).build Leaf.build).outcome #[]
      = (.ok (.fragment f), #[]) := rfl
  have h_drops : Relation.EqvGen Drops (.filtered [.group .and [kept, blank]])
      (.filtered [.group .and [kept]]) :=
    .rel _ _ (.inFiltered [] [] (.group .and [kept] [] rfl))
  obtain ⟨h_none, h_same⟩ := render_vacuous
  refine ⟨h_blank, ?_, h_built, h_drops, h_same _ _ f #[] #[] h_built h_drops⟩
  intro c
  have h_render := h_none blank nothing #[] #[] h_blank c
  exact ⟨h_render.1.mpr rfl, h_render.2 rfl⟩

end Plan

end SqlCompose
