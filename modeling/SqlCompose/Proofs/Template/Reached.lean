/-
  SqlCompose.Proofs.Template.Reached

  Templates that calls have built, and what they render to. `Reached t calls` says
  that `t` came about by `calls`, from the empty template or from one that starts with
  a text. What a template holds after its calls depends on little of them:

    * `alternate calls`    -- the texts between the fragments, those in a row merged
                              and those that are missing empty;
    * `renderCalls calls`  -- the texts and the renderings of the fragments, one call
                              after the other.

  `Interleaves` is what every call keeps (`Interleaves.call`): the segments of the
  template, closed by an empty one where it ends in a fragment, are `alternate calls`.
  The template is then as good as this list (`render_eq_compose`), and a statement of
  the list is what the calls write one by one (`run_interleave_alternate`).
-/
import Mathlib.Data.List.Basic
import SqlCompose.Proofs.Statement
import SqlCompose.Proofs.Template.Calls

namespace SqlCompose.Template

variable {φ : Type}

/-- The template is built by the calls, from the first to the last. Starting with a
    text counts as a call. -/
inductive Reached [Filler φ] : Template → List (Call φ) → Prop where
  | empty : Reached {} []
  | ofText (s : String) : Reached (ofText s) [.text s]
  | call {t : Template} {calls : List (Call φ)} (h : Reached t calls) (c : Call φ) :
      Reached (t.call c) (calls ++ [c])

/-! ## Texts between fragments -/

/-- The texts in front of, between and behind the fragments of the calls. -/
def alternate : List (Call φ) → List String
  | [] => [""]
  | .text s :: calls => (alternate calls).modifyHead (s ++ ·)
  | .fill _ :: calls => "" :: alternate calls

theorem modifyHead_empty_append (texts : List String) : texts.modifyHead ("" ++ ·) = texts := by
  have h_id : (fun s : String => "" ++ s) = id := by
    funext s
    exact String.empty_append
  rw [h_id, List.modifyHead_id]
  rfl

theorem length_alternate (calls : List (Call φ)) :
    (alternate calls).length = (calls.filterMap Call.filled?).length + 1 := by
  induction calls with
  | nil => rfl
  | cons c calls ih =>
      cases c with
      | text s =>
          rw [alternate, List.length_modifyHead, ih]
          rfl
      | fill x =>
          rw [alternate, List.length_cons, ih]
          rfl

theorem alternate_ne_nil (calls : List (Call φ)) : alternate calls ≠ [] := by
  rw [← List.length_pos_iff, length_alternate]
  omega

theorem exists_alternate_eq_append (calls : List (Call φ)) :
    ∃ texts last, alternate calls = texts ++ [last] :=
  ⟨_, _, (List.dropLast_append_getLast (alternate_ne_nil calls)).symm⟩

/-- What the later calls write first joins the last text of the earlier ones. -/
theorem alternate_append {calls more : List (Call φ)} {texts : List String} {last : String}
    (h : alternate calls = texts ++ [last]) :
    alternate (calls ++ more) = texts ++ (alternate more).modifyHead (last ++ ·) := by
  induction calls generalizing texts last with
  | nil =>
      have h_first : texts = [] ∧ last = "" := by
        cases texts with
        | nil => simpa [alternate, eq_comm] using h
        | cons s texts => simp [alternate] at h
      rw [h_first.1, h_first.2, modifyHead_empty_append]
      rfl
  | cons c calls ih =>
      -- The texts of the calls behind `c` end in a text of their own.
      obtain ⟨init, final, h_calls⟩ := exists_alternate_eq_append calls
      have h_more := ih h_calls
      cases c with
      | fill x =>
          rw [alternate, h_calls, ← List.cons_append] at h
          obtain ⟨rfl, h_last⟩ := List.append_inj' h rfl
          rw [List.cons.injEq] at h_last
          rw [List.cons_append, alternate, h_more, h_last.1]
          rfl
      | text s =>
          rw [alternate, h_calls] at h
          rw [List.cons_append, alternate, h_more]
          cases init with
          | nil =>
              rw [List.nil_append, List.modifyHead_cons] at h
              have h_texts : [] = texts ∧ [s ++ final] = [last] := List.append_inj' h rfl
              obtain ⟨rfl, h_last⟩ := h_texts
              rw [List.cons.injEq] at h_last
              rw [List.nil_append, List.nil_append, List.modifyHead_modifyHead, ← h_last.1]
              congr 1
              funext text
              exact String.append_assoc.symm
          | cons first init =>
              rw [List.cons_append, List.modifyHead_cons, ← List.cons_append] at h
              obtain ⟨rfl, h_last⟩ := List.append_inj' h rfl
              rw [List.cons.injEq] at h_last
              rw [← h_last.1]
              rfl

/-- The texts in front of some calls do not depend on more than the texts of these. -/
theorem alternate_append_congr (calls : List (Call φ)) {more other : List (Call φ)}
    (h : alternate more = alternate other) :
    alternate (calls ++ more) = alternate (calls ++ other) := by
  induction calls with
  | nil => exact h
  | cons c calls ih =>
      cases c with
      | text s => rw [List.cons_append, List.cons_append, alternate, alternate, ih]
      | fill x => rw [List.cons_append, List.cons_append, alternate, alternate, ih]

/-- Two texts in a row are one text. -/
theorem alternate_merge (before after : List (Call φ)) (s u : String) :
    alternate (before ++ .text s :: .text u :: after)
      = alternate (before ++ .text (s ++ u) :: after) := by
  apply alternate_append_congr
  rw [alternate, alternate, alternate, List.modifyHead_modifyHead]
  congr 1
  funext text
  exact String.append_assoc.symm

/-- An empty text is no text. -/
theorem alternate_empty (before after : List (Call φ)) :
    alternate (before ++ .text "" :: after) = alternate (before ++ after) := by
  apply alternate_append_congr
  rw [alternate, modifyHead_empty_append]

/-! ## What calls keep -/

variable [Filler φ]

/-- The template holds the texts and the fragments of the calls, and is in one of two
    shapes: as many segments as fragments, or one segment more. -/
structure Interleaves (t : Template) (calls : List (Call φ)) : Prop where
  sizes : t.segments.size = t.fragments.size ∨ t.segments.size = t.fragments.size + 1
  segments : t.closedSegments.toList = alternate calls
  fragments : t.fragments.toList = (calls.filterMap Call.filled?).map Filler.render

theorem isBalanced_iff {t : Template} :
    t.isBalanced = true ↔ t.segments.size = t.fragments.size := by
  rw [isBalanced, beq_iff_eq]

theorem closedSegments_of_balanced {t : Template} (h : t.segments.size = t.fragments.size) :
    t.closedSegments = t.segments.push "" := by
  rw [closedSegments, if_pos (isBalanced_iff.mpr h)]

theorem closedSegments_of_ahead {t : Template} (h : t.segments.size = t.fragments.size + 1) :
    t.closedSegments = t.segments := by
  rw [closedSegments, if_neg]
  rw [isBalanced_iff]
  omega

/-- Closing the segments adds no text. -/
theorem mem_closedSegments {t : Template} {s : String} (h : s ∈ t.closedSegments.toList) :
    s ∈ t.segments.toList ∨ s = "" := by
  rw [closedSegments] at h
  by_cases h_balanced : t.isBalanced = true
  · rw [if_pos h_balanced, Array.toList_push, List.mem_append, List.mem_singleton] at h
    exact h
  · rw [if_neg h_balanced] at h
    exact Or.inl h

theorem modify_last (texts : List String) (last s : String) :
    (texts ++ [last]).modify texts.length (· ++ s) = texts ++ [last ++ s] := by
  induction texts with
  | nil => rfl
  | cons text texts ih =>
      rw [List.cons_append, List.length_cons, List.modify_succ_cons, ih]
      rfl

/-- A text joins the last segment, or becomes it. -/
theorem Interleaves.text {t : Template} {calls : List (Call φ)} (h : t.Interleaves calls)
    (s : String) : (t.text s).Interleaves (calls ++ [.text s]) := by
  have h_fragments : (calls ++ [Call.text s]).filterMap Call.filled?
      = calls.filterMap Call.filled? := by
    rw [List.filterMap_append]
    exact List.append_nil _
  rcases h.sizes with h_size | h_size
  · -- The template ends in a fragment, so its texts end in an empty one.
    have h_texts : alternate calls = t.segments.toList ++ [""] := by
      rw [← h.segments, closedSegments_of_balanced h_size, Array.toList_push]
    have h_text : t.text s = { t with segments := t.segments.push s } := by
      rw [Template.text, if_pos (isBalanced_iff.mpr h_size)]
    have h_ahead : (t.text s).segments.size = (t.text s).fragments.size + 1 := by
      rw [h_text, Array.size_push, h_size]
    refine ⟨Or.inr h_ahead, ?_, ?_⟩
    · rw [closedSegments_of_ahead h_ahead, alternate_append h_texts, h_text, Array.toList_push]
      simp [alternate]
    · rw [h_text, h_fragments]
      exact h.fragments
  · have h_some : t.segments.toList ≠ [] := by
      rw [← List.length_pos_iff, Array.length_toList, h_size]
      omega
    obtain ⟨texts, last, h_last⟩ : ∃ texts last, t.segments.toList = texts ++ [last] :=
      ⟨_, _, (List.dropLast_append_getLast h_some).symm⟩
    have h_texts : alternate calls = texts ++ [last] := by
      rw [← h.segments, closedSegments_of_ahead h_size, h_last]
    have h_position : t.segments.size - 1 = texts.length := by
      rw [← Array.length_toList, h_last, List.length_append, List.length_singleton]
      omega
    have h_unbalanced : ¬t.isBalanced = true := by
      rw [isBalanced_iff]
      omega
    have h_text : t.text s
        = { t with segments := t.segments.modify (t.segments.size - 1) (· ++ s) } := by
      rw [Template.text, if_neg h_unbalanced]
    have h_ahead : (t.text s).segments.size = (t.text s).fragments.size + 1 := by
      rw [h_text, Array.size_modify, h_size]
    refine ⟨Or.inr h_ahead, ?_, ?_⟩
    · rw [closedSegments_of_ahead h_ahead, alternate_append h_texts, h_text,
        Array.toList_modify, h_position, h_last, modify_last]
      simp [alternate]
    · rw [h_text, h_fragments]
      exact h.fragments

/-- In both shapes the closed segments are one more than the fragments. -/
theorem Interleaves.size_closedSegments {t : Template} {calls : List (Call φ)}
    (h : t.Interleaves calls) : t.closedSegments.size = t.fragments.size + 1 := by
  rcases h.sizes with h_size | h_size
  · rw [closedSegments_of_balanced h_size, Array.size_push, h_size]
  · rw [closedSegments_of_ahead h_size, h_size]

/-- A fragment ends the last segment. -/
theorem Interleaves.fill {t : Template} {calls : List (Call φ)} (h : t.Interleaves calls)
    (f : φ) : (t.fill f).Interleaves (calls ++ [.fill f]) := by
  have h_segments : (t.fill f).segments = t.closedSegments := rfl
  have h_fragments : (t.fill f).fragments = t.fragments.push (Filler.render f) := rfl
  have h_balanced : (t.fill f).segments.size = (t.fill f).fragments.size := by
    rw [h_segments, h_fragments, h.size_closedSegments, Array.size_push]
  refine ⟨Or.inl h_balanced, ?_, ?_⟩
  · obtain ⟨texts, last, h_last⟩ := exists_alternate_eq_append calls
    rw [closedSegments_of_balanced h_balanced, h_segments, Array.toList_push, h.segments,
      alternate_append h_last, h_last]
    simp [alternate]
  · rw [h_fragments, Array.toList_push, h.fragments, List.filterMap_append, List.map_append]
    rfl

theorem Interleaves.call {t : Template} {calls : List (Call φ)} (h : t.Interleaves calls)
    (c : Call φ) : (t.call c).Interleaves (calls ++ [c]) := by
  cases c with
  | text s => exact h.text s
  | fill f => exact h.fill f

theorem Reached.interleaves {t : Template} {calls : List (Call φ)} (h : t.Reached calls) :
    t.Interleaves calls := by
  induction h with
  | empty => exact ⟨Or.inl rfl, rfl, rfl⟩
  | ofText s =>
      refine ⟨Or.inr rfl, ?_, rfl⟩
      simp [closedSegments, isBalanced, Template.ofText, alternate]
  | call h c ih => exact ih.call c

/-! ## Rendering -/

/-- What the calls write on one collector, one after the other. -/
def renderCalls : List (Call φ) → Render String
  | [] => return ""
  | .text s :: calls => do
    let sql ← renderCalls calls
    return s ++ sql
  | .fill f :: calls => do
    let sql ← Filler.render f
    let rest ← renderCalls calls
    return sql ++ rest

/-- A text in front of the segments is in front of the statement. -/
theorem interleave_modifyHead (s : String) {segments : List String} (fragments : List φ)
    (h : segments ≠ []) (c : Collector) :
    c.run (interleave (segments.modifyHead (s ++ ·)) fragments)
      = (s ++ (c.run (interleave segments fragments)).1,
          (c.run (interleave segments fragments)).2) := by
  cases segments with
  | nil => exact absurd rfl h
  | cons segment segments =>
      cases fragments with
      | nil => rfl
      | cons f fragments =>
          rw [List.modifyHead_cons, interleave, interleave]
          simp only [Collector.run_bind, Collector.run_pure, String.append_assoc]

/-- The segments and fragments of some calls, in turn, are what the calls write. -/
theorem run_interleave_alternate (calls : List (Call φ)) (c : Collector) :
    c.run (interleave (alternate calls) (calls.filterMap Call.filled?))
      = c.run (renderCalls calls) := by
  induction calls generalizing c with
  | nil => rfl
  | cons call calls ih =>
      cases call with
      | text s =>
          have h_some := alternate_ne_nil calls
          have h_filled : (Call.text s :: calls).filterMap Call.filled?
              = calls.filterMap Call.filled? := rfl
          rw [alternate, h_filled, interleave_modifyHead s _ h_some, ih, renderCalls]
          rfl
      | fill f =>
          have h_filled : (Call.fill f :: calls).filterMap Call.filled?
              = f :: calls.filterMap Call.filled? := rfl
          rw [alternate, h_filled, interleave, renderCalls]
          simp only [Collector.run_bind, Collector.run_pure, ih, String.empty_append]

theorem Reached.render_eq_compose {t : Template} {calls : List (Call φ)}
    (h : t.Reached calls) (style : MarkerStyle) :
    t.render style = compose (alternate calls) (calls.filterMap Call.filled?) { style } := by
  rw [render, h.interleaves.segments, h.interleaves.fragments, compose_map_render]

theorem outcome_compose_alternate (calls : List (Call φ)) (c : Collector)
    (events : Array Event) :
    (compose (alternate calls) (calls.filterMap Call.filled?) c).outcome events
      = (.ok ⟨(c.run (renderCalls calls)).1, (c.run (renderCalls calls)).2.values⟩, events) := by
  rw [outcome_compose_of_even (length_alternate calls), run_interleave_alternate]

/-- A template that calls have built is in one of two shapes and renders, in either
    style, to what the calls write one after the other on one fresh collector, with
    the values that they leave there. So it is the statement of the texts between the
    fragments and the fragments; and two texts in a row can be one, and an empty text
    be left out or put in, anywhere. -/
theorem Reached.outcome_render {t : Template} {calls : List (Call φ)}
    (h : t.Reached calls) :
    (t.segments.size = t.fragments.size ∨ t.segments.size = t.fragments.size + 1) ∧
    (∀ (style : MarkerStyle) (events : Array Event),
      (t.render style).outcome events
        = (.ok ⟨(Collector.run { style } (renderCalls calls)).1,
            (Collector.run { style } (renderCalls calls)).2.values⟩, events)) ∧
    (∀ style : MarkerStyle,
      t.render style = compose (alternate calls) (calls.filterMap Call.filled?) { style }) ∧
    (∀ (before after : List (Call φ)) (s u : String) (t' : Template),
      calls = before ++ .text s :: .text u :: after →
        t'.Reached (before ++ .text (s ++ u) :: after) → t'.render = t.render) ∧
    ∀ (before after : List (Call φ)) (t' : Template),
      calls = before ++ after → t'.Reached (before ++ .text "" :: after) →
        t'.render = t.render := by
  -- Only the texts between the fragments and the fragments matter.
  have h_same : ∀ {others : List (Call φ)} {t' : Template}, t'.Reached others →
      alternate others = alternate calls →
      others.filterMap Call.filled? = calls.filterMap Call.filled? → t'.render = t.render := by
    intro others t' h_other h_texts h_fragments
    funext style
    rw [h_other.render_eq_compose, h.render_eq_compose, h_texts, h_fragments]
  refine ⟨h.interleaves.sizes, ?_, h.render_eq_compose, ?_, ?_⟩
  · intro style events
    rw [h.render_eq_compose]
    exact outcome_compose_alternate calls { style } events
  · rintro before after s u t' rfl h_other
    refine h_same h_other (alternate_merge before after s u).symm ?_
    rw [List.filterMap_append, List.filterMap_append]
    rfl
  · rintro before after t' rfl h_other
    refine h_same h_other (alternate_empty before after) ?_
    rw [List.filterMap_append, List.filterMap_append]
    rfl

/-- A bound, two texts and a computation that binds a value only behind another one; and
    the same with both texts in one. -/
theorem Reached.outcome_render_limit :
    let limit : Render String := (Fragment.bound .limit (some 3)).render
    let last : Render String := do
      let c ← get
      if c.values.isEmpty then return "" else Collector.bind .null
    let t := (((Template.fill {} limit).text "a").text "b").fill last
    let t' := ((Template.fill {} limit).text "ab").fill last
    t.Reached [.fill limit, .text "a", .text "b", .fill last] ∧
      t'.Reached [.fill limit, .text "ab", .fill last] ∧
      (t.render .positional).outcome #[] = (.ok ⟨"LIMIT $1ab$2", #[.int 3, .null]⟩, #[]) ∧
      t'.render = t.render := by
  intro limit last t t'
  have h_fill : (Template.fill {} limit).Reached [.fill limit] := Reached.empty.call (.fill limit)
  have h : t.Reached [.fill limit, .text "a", .text "b", .fill last] :=
    ((h_fill.call (.text "a")).call (.text "b")).call (.fill last)
  have h' : t'.Reached [.fill limit, .text "ab", .fill last] :=
    (h_fill.call (.text "ab")).call (.fill last)
  have h_spec := h.outcome_render
  exact ⟨h, h', h_spec.2.1 .positional #[],
    h_spec.2.2.2.1 [.fill limit] [.fill last] "a" "b" t' rfl h'⟩

end SqlCompose.Template
