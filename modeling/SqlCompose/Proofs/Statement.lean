/-
  SqlCompose.Proofs.Statement

  Statements from segments and fragments. Composing them has two outcomes, and the
  numbers of segments and fragments decide (`outcome_compose_of_even`,
  `outcome_compose_of_uneven`).

  As outlines, `Outline.interleaved` puts the segments between the outlines of the
  fragments, and composing follows it (`binds_interleave`): with a segment more than
  there are fragments, a statement has the text of the whole outline and binds what the
  fragments bind, in order (`outcome_compose`).
-/
import SqlCompose.Proofs.Outline.Render
import SqlCompose.Template

namespace SqlCompose

/-! ## The two outcomes -/

section Filler

variable {φ : Type} [Filler φ]

/-- With a segment more than there are fragments, composing gives what they render to in
    turn. -/
theorem outcome_compose_of_even {segments : List String} {fragments : List φ}
    (h : segments.length = fragments.length + 1) (c : Collector) (events : Array Event) :
    (compose segments fragments c).outcome events
      = (.ok ⟨(c.run (interleave segments fragments)).1,
          (c.run (interleave segments fragments)).2.values⟩, events) := by
  rw [compose, if_neg (fun h_uneven => h_uneven h)]
  rfl

/-- With any other number of segments, composing is refused for the two numbers. -/
theorem outcome_compose_of_uneven {segments : List String} {fragments : List φ}
    (h : segments.length ≠ fragments.length + 1) (c : Collector) (events : Array Event) :
    (compose segments fragments c).outcome events
      = (.error (.unevenSegments segments.length fragments.length),
          events.push (.refused (.unevenSegments segments.length fragments.length))) := by
  rw [compose, if_pos h, Logged.outcome_refuse]

/-- Of the fragments, only what they render to comes into a statement. -/
theorem interleave_map_render (segments : List String) (fragments : List φ) :
    interleave segments (fragments.map Filler.render) = interleave segments fragments := by
  induction segments generalizing fragments with
  | nil => rfl
  | cons segment segments ih =>
      cases fragments with
      | nil => rfl
      | cons f fragments =>
          rw [List.map_cons, interleave, ih]
          rfl

theorem compose_map_render (segments : List String) (fragments : List φ) (c : Collector) :
    compose segments (fragments.map Filler.render) c = compose segments fragments c := by
  rw [compose, interleave_map_render, List.length_map]
  rfl

end Filler

/-! ## Outlines -/

/-- The outline of segments and fragments in turn. -/
def Outline.interleaved : List String → List Outline → Outline
  | [], _ => []
  | segment :: _, [] => [.text segment]
  | segment :: segments, o :: os => .text segment :: (o ++ interleaved segments os)

theorem binds_interleave (segments : List String) (fragments : List Fragment)
    (h : ∀ g ∈ fragments, g.stepsAll Step.isPlain = true) :
    Render.Binds (interleave segments fragments)
      (Outline.interleaved segments (fragments.map Fragment.outline)).values
      fun style n =>
        (Outline.interleaved segments (fragments.map Fragment.outline)).sql style n := by
  induction segments generalizing fragments with
  | nil => exact Render.Binds.pure ""
  | cons segment segments ih =>
      cases fragments with
      | nil =>
          refine (Render.Binds.pure segment).congr rfl ?_
          intro style n
          rw [List.map_nil, Outline.interleaved, Outline.sql_text]
      | cons g fragments =>
          have h_first := g.binds_outline (h g List.mem_cons_self)
          have h_rest := ih fragments fun g' h_g' => h g' (List.mem_cons_of_mem g h_g')
          refine (h_first.seq h_rest fun sql rest => segment ++ sql ++ rest).congr ?_ ?_
          · rw [List.map_cons, Outline.interleaved, Outline.values, Outline.values_append]
          · intro style n
            rw [List.map_cons, Outline.interleaved, Outline.sql, Outline.sql_append,
              String.append_assoc]

/-- With a segment more than there are outlines, no outline is left out. -/
theorem Outline.values_interleaved {segments : List String} {os : List Outline}
    (h : segments.length = os.length + 1) :
    (interleaved segments os).values = os.flatMap values := by
  induction os generalizing segments with
  | nil =>
      cases segments with
      | nil => simp at h
      | cons segment segments => rfl
  | cons o os ih =>
      cases segments with
      | nil => simp at h
      | cons segment segments =>
          rw [List.length_cons, List.length_cons, Nat.add_right_cancel_iff] at h
          rw [interleaved, values, values_append, ih h, List.flatMap_cons]

/-- Segments and fragments make one statement, of the outlines of the fragments. -/
theorem outcome_compose {φ : Type} {part : φ → Fragment} {vs : φ → List Value}
    {segments : List String} {xs : List φ} (h_length : segments.length = xs.length + 1)
    (h_part : ∀ x, (part x).stepsAll Step.isPlain = true ∧ (part x).outline.values = vs x)
    (c : Collector) (events : Array Event) :
    (compose segments (xs.map part) c).outcome events
      = (.ok ⟨(Outline.interleaved segments ((xs.map part).map Fragment.outline)).sql
          c.style c.values.size, c.values ++ xs.flatMap vs⟩, events) := by
  have h_count : segments.length = (xs.map part).length + 1 := by
    rw [List.length_map]
    exact h_length
  have h_binds := binds_interleave segments (xs.map part) (by
    intro g h_g
    obtain ⟨x, -, rfl⟩ := List.mem_map.mp h_g
    exact (h_part x).1)
  have h_values : (Outline.interleaved segments ((xs.map part).map Fragment.outline)).values
      = xs.flatMap vs := by
    rw [Outline.values_interleaved (by rw [List.length_map]; exact h_count), List.map_map,
      List.flatMap_map]
    exact congrArg (xs.flatMap ·) (funext fun x => (h_part x).2)
  rw [outcome_compose_of_even h_count, h_binds c, h_values]
  rfl

end SqlCompose
