/-
  SqlCompose.Proofs.Exchange.Template

  Values do not reach the text. A statement is composed twice, the second time with
  other values in it: every value `v` is `f v` there, a number of rows is another one
  and JSON data has other scalars. Both times the text is the same, whatever the
  collector and the style, and the values of the second one are those that the
  sources of the first one were exchanged for, place by place
  (`Exchange.text_eq`).

  The two runs are kept together by a plan over `Exchange`s, leaves with what they are
  exchanged for. Both runs have the outlines that the plan gives them
  (`Plan.outline_of_outcome_build`), and the two outlines are alike, because they are
  at the leaves and groups keep it.
-/
import SqlCompose.Proofs.Exchange.Leaf
import SqlCompose.Proofs.Statement
import SqlCompose.Proofs.Template.Calls

namespace SqlCompose

/-- A leaf and what it is exchanged for. -/
structure Exchange (f : Value → Value) where
  old : Leaf
  new : Leaf
  exchanged : Leaf.Exchanged f old new

/-! ## Fragments -/

namespace Plan

variable {α : Type} {f : Value → Value}

/-- What is exchanged for a fragment that is built is built. -/
theorem exists_gives_new {plan : Plan (Exchange f)} {g : Fragment} {events after : Array Event}
    (h : (plan.build (·.old.build)).outcome events = (.ok (.fragment g), after)) :
    ∃ g', (plan.build (·.new.build)).Gives (.fragment g') := by
  obtain ⟨h_filled, h_leaves⟩ := leaves_of_outcome_build plan _ _ _ h
  have h_built : ∀ e ∈ plan.leaves, ∃ condition,
      e.new.build.Gives condition ∧ condition.Plays e.new.outlines := by
    intro e h_e
    obtain ⟨before, built, later, h_leaf⟩ := h_leaves e h_e
    obtain ⟨other, h_other, -⟩ := e.exchanged.gives h_leaf
    exact ⟨other, Leaf.plays_of_outcome_build (h_other #[])⟩
  obtain ⟨condition, h_gives, -⟩ := plan.gives_build h_built h_filled
  have h_fragment : ∃ g', condition = .fragment g' := by
    -- A leaf on its own may be a fragment, too.
    cases plan with
    | leaf e =>
        rw [build] at h h_gives
        obtain ⟨other, h_other, h_is⟩ := e.exchanged.gives h
        rw [h_gives.eq_of_outcome (h_other #[])]
        exact h_is g rfl
    | group connective plans => exact exists_fragment_of_gives (fun a h_a => by cases h_a) h_gives
    | filtered plans => exact exists_fragment_of_gives (fun a h_a => by cases h_a) h_gives
  obtain ⟨g', rfl⟩ := h_fragment
  exact ⟨g', h_gives⟩

theorem alike_role (plan : Plan (Exchange f)) :
    Role.Related Outline.Alike (plan.role (.outlines fun e => e.old.outlines))
      (plan.role (.outlines fun e => e.new.outlines)) := by
  have h_target : Target.Related Outline.Alike
      (Target.outlines fun e : Exchange f => e.old.outlines)
      (Target.outlines fun e : Exchange f => e.new.outlines) := by
    constructor
    · exact fun connective _ _ h => Outline.alike_outline connective h
    · exact fun _ _ h => Outline.alike_filtered h
  refine plan.related_role h_target ?_
  intro e _
  exact e.exchanged.alike_outlines

theorem sources_exchanged (plan : Plan (Exchange f)) :
    List.Forall₂ (Source.Exchanged f) (plan.sources (·.old)) (plan.sources (·.new)) := by
  have h_leaves : List.Forall₂ (· = ·) plan.leaves plan.leaves := List.forall₂_same.mpr (by simp)
  refine List.rel_flatMap h_leaves ?_
  intro e e' h_e
  subst h_e
  exact e.exchanged.sources

end Plan

/-- A fragment of a statement, as a plan builds it before and after the exchange. -/
structure Exchange.Fragments (f : Value → Value) where
  plan : Plan (Exchange f)
  old : Fragment
  new : Fragment
  old_built : ∃ events after, (plan.build (·.old.build)).outcome events = (.ok (.fragment old), after)
  new_built : ∃ events after, (plan.build (·.new.build)).outcome events = (.ok (.fragment new), after)

namespace Exchange.Fragments

variable {f : Value → Value}

/-- What is bound before the exchange. -/
def oldValues (x : Fragments f) : List Value := (x.plan.sources (·.old)).map Source.toValue

/-- What is bound after the exchange. -/
def newValues (x : Fragments f) : List Value := (x.plan.sources (·.new)).map Source.toValue

theorem old_spec (x : Fragments f) :
    x.old.stepsAll Step.isPlain = true ∧ x.old.outline.values = x.oldValues := by
  obtain ⟨events, after, h_old⟩ := x.old_built
  obtain ⟨h_plain, -, h_values⟩ := Plan.outline_of_outcome_build Exchange.old h_old
  exact ⟨h_plain, h_values⟩

theorem new_spec (x : Fragments f) :
    x.new.stepsAll Step.isPlain = true ∧ x.new.outline.values = x.newValues := by
  obtain ⟨events, after, h_new⟩ := x.new_built
  obtain ⟨h_plain, -, h_values⟩ := Plan.outline_of_outcome_build Exchange.new h_new
  exact ⟨h_plain, h_values⟩

theorem alike (x : Fragments f) : Outline.Alike x.old.outline x.new.outline := by
  obtain ⟨events, after, h_old⟩ := x.old_built
  obtain ⟨before, later, h_new⟩ := x.new_built
  obtain ⟨-, h_oldOutline, -⟩ := Plan.outline_of_outcome_build Exchange.old h_old
  obtain ⟨-, h_newOutline, -⟩ := Plan.outline_of_outcome_build Exchange.new h_new
  rw [h_oldOutline, h_newOutline]
  exact (Plan.alike_role x.plan).whole

end Exchange.Fragments

/-! ## Statements -/

theorem Outline.alike_interleaved (segments : List String) {os ps : List Outline}
    (h : List.Forall₂ Alike os ps) :
    Alike (interleaved segments os) (interleaved segments ps) := by
  induction h generalizing segments with
  | nil => rfl
  | cons h_first h_rest ih =>
      cases segments with
      | nil => rfl
      | cons segment segments =>
          have h_more := ih segments
          rw [Alike] at h_first h_more
          rw [Alike, interleaved, interleaved]
          show Piece.text segment :: erase (_ ++ _) = Piece.text segment :: erase (_ ++ _)
          rw [erase_append, erase_append, h_first, h_more]

/-- Two statements composed on `c`: they have the same text and bind `vs` and `ws`, or
    both are refused alike. -/
def Exchange.SameText (c : Collector) (vs ws : List Value) (x y : Logged Statement) : Prop :=
  ∀ events : Array Event, ∃ (result : Except ComposeError String) (after : Array Event),
    x.outcome events = (result.map (⟨·, c.values ++ vs⟩), after) ∧
      y.outcome events = (result.map (⟨·, c.values ++ ws⟩), after)

theorem Exchange.sameText_compose {f : Value → Value} (segments : List String)
    (xs : List (Exchange.Fragments f)) (c : Collector) :
    SameText c (xs.flatMap (·.oldValues)) (xs.flatMap (·.newValues))
      (compose segments (xs.map (·.old)) c) (compose segments (xs.map (·.new)) c) := by
  intro events
  by_cases h_length : segments.length = xs.length + 1
  · have h_alike : Outline.Alike
        (Outline.interleaved segments ((xs.map (·.old)).map Fragment.outline))
        (Outline.interleaved segments ((xs.map (·.new)).map Fragment.outline)) := by
      apply Outline.alike_interleaved
      rw [List.map_map, List.map_map, List.forall₂_map_left_iff, List.forall₂_map_right_iff,
        List.forall₂_same]
      exact fun x _ => x.alike
    rw [outcome_compose h_length (fun x => x.old_spec) c,
      outcome_compose h_length (fun x => x.new_spec) c, ← h_alike.sql_eq]
    exact ⟨.ok _, events, rfl, rfl⟩
  · -- The two are refused for the same two numbers.
    rw [outcome_compose_of_uneven (by rwa [List.length_map]),
      outcome_compose_of_uneven (by rwa [List.length_map]), List.length_map, List.length_map]
    exact ⟨.error _, _, rfl, rfl⟩

/-! ## Values and text -/

/-- Exchanging values changes no text. What is exchanged for a fragment that a program
    builds is built; both write the same text on every collector and bind what their
    sources are made into, and the sources are exchanged one by one. So it is for the
    statements of segments and fragments, and of templates. -/
theorem Exchange.text_eq (f : Value → Value) :
    (∀ (plan : Plan (Exchange f)) (g : Fragment) (events after : Array Event),
      (plan.build (·.old.build)).outcome events = (.ok (.fragment g), after) →
        ∃ x : Exchange.Fragments f, x.plan = plan ∧ x.old = g) ∧
    (∀ (x : Exchange.Fragments f) (c : Collector), ∃ sql : String,
      c.run x.old.render
          = (sql, { c with values := c.values ++ (x.plan.sources (·.old)).map Source.toValue }) ∧
        c.run x.new.render
          = (sql, { c with values := c.values ++ (x.plan.sources (·.new)).map Source.toValue }) ∧
        List.Forall₂ (Source.Exchanged f) (x.plan.sources (·.old)) (x.plan.sources (·.new))) ∧
    (∀ (segments : List String) (xs : List (Exchange.Fragments f)) (c : Collector),
      SameText c (xs.flatMap (·.oldValues)) (xs.flatMap (·.newValues))
        (compose segments (xs.map (·.old)) c) (compose segments (xs.map (·.new)) c)) ∧
    (∀ (calls : List (Template.Call (Exchange.Fragments f))) (style : MarkerStyle),
      SameText { style } ((calls.filterMap Template.Call.filled?).flatMap (·.oldValues))
        ((calls.filterMap Template.Call.filled?).flatMap (·.newValues))
        ((Template.ofCalls (calls.map (.map (·.old)))).render style)
        ((Template.ofCalls (calls.map (.map (·.new)))).render style)) := by
  refine ⟨?_, ?_, Exchange.sameText_compose, ?_⟩
  · intro plan g events after h
    obtain ⟨g', h_new⟩ := Plan.exists_gives_new h
    exact ⟨⟨plan, g, g', ⟨events, after, h⟩, ⟨#[], #[], h_new #[]⟩⟩, rfl, rfl⟩
  · intro x c
    refine ⟨x.old.outline.sql c.style c.values.size, ?_, ?_, x.plan.sources_exchanged⟩
    · rw [x.old.binds_outline x.old_spec.1 c, x.old_spec.2]
      rfl
    · rw [x.new.binds_outline x.new_spec.1 c, x.new_spec.2, x.alike.sql_eq]
      rfl
  · intro calls style
    have h_segments := Template.segments_foldl_call (fun x : Exchange.Fragments f => x.old)
      (fun x => x.new) calls (t := {}) (u := {}) rfl rfl
    have h_old := Template.fragments_foldl_call (fun x : Exchange.Fragments f => x.old) calls {}
    have h_new := Template.fragments_foldl_call (fun x : Exchange.Fragments f => x.new) calls {}
    have h_empty : ({} : Template).fragments.toList = [] := rfl
    rw [Template.render, Template.render, Template.ofCalls, Template.ofCalls, h_segments, h_old,
      h_new, h_empty, List.nil_append, List.nil_append, compose_map_render, compose_map_render]
    exact Exchange.sameText_compose _ _ _

end SqlCompose
