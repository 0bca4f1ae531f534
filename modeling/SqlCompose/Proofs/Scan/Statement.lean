/-
  SqlCompose.Proofs.Scan.Statement

  Reading the markers back from a finished statement. The statement is composed on an
  empty collector, in either style, out of segments and fragments that are built from
  leaves. If no text of the program holds the mark of the style, and no segment and no
  text that is used as it is starts with a digit, then the tokens in the text are the
  markers of the values, in order, and there are no others
  (`Construction.exists_readsBack`).

  The fragments scan because their leaves do (`Construction.scans_outline`), and they
  start with a parenthesis or a keyword, if with anything
  (`Construction.endsNumbers_outline`). So a number at the end of a fragment is not
  gone on with by the fragment or the segment behind it, and segments and fragments in
  turn scan, too (`Outline.scans_interleaved`).
-/
import SqlCompose.Proofs.Scan.Leaf
import SqlCompose.Proofs.Statement
import SqlCompose.Proofs.Template.Reached

namespace SqlCompose

open Outline (Scans EndsNumbers)

variable {style : MarkerStyle}

/-! ## Fragments -/

namespace Construction

/-- The texts that a program puts into a fragment. -/
def texts (x : Construction) : List String := x.plan.leaves.flatMap Leaf.texts

/-- The texts that are used as they are. -/
def raws (x : Construction) : List String := x.plan.leaves.flatMap Leaf.raws

theorem scans_outline (x : Construction) (h_mark : ∀ s ∈ x.texts, style.mark ∉ s.toList) :
    x.fragment.outline.Scans style := by
  obtain ⟨events, after, h_built⟩ := x.built
  obtain ⟨-, h_leaves⟩ := Plan.leaves_of_outcome_build x.plan _ _ _ h_built
  have h_role : (x.plan.role (.outlines Leaf.outlines)).All (Scans style) := by
    apply Plan.all_role
    · exact fun connective os h_os => Outline.scans_outline connective h_os
    · exact fun o h_o => Outline.scans_filtered h_o
    · intro leaf h_leaf
      obtain ⟨before, condition, later, h_condition⟩ := h_leaves leaf h_leaf
      refine Leaf.scans_outlines h_condition ?_
      intro s h_s
      exact h_mark s (List.mem_flatMap.mpr ⟨leaf, h_leaf, h_s⟩)
  rw [x.spec.2.1]
  exact h_role.whole

theorem endsNumbers_outline (x : Construction) (h_raw : ∀ s ∈ x.raws, EndsNumber s.toList) :
    x.fragment.outline.EndsNumbers style := by
  have h_outline := x.spec.2.1
  obtain ⟨plan, f, events, after, h_built⟩ := x
  rw [h_outline]
  -- Groups and WHERE clauses decide for themselves what they start with.
  cases plan with
  | leaf leaf =>
      refine Leaf.endsNumbers_outlines h_built ?_
      intro s h_s
      apply h_raw
      rw [raws, Plan.leaves, List.flatMap_singleton]
      exact h_s
  | group connective plans =>
      rw [Plan.role]
      exact connective.endsNumbers_outline _
  | filtered plans =>
      rw [Plan.role]
      exact Outline.endsNumbers_filtered _

end Construction

/-! ## Statements -/

theorem Outline.scans_interleaved {segments : List String} {os : List Outline}
    (h_segments : ∀ s ∈ segments, style.mark ∉ s.toList ∧ EndsNumber s.toList)
    (h_parts : ∀ o ∈ os, o.Scans style ∧ o.EndsNumbers style) :
    (interleaved segments os).Scans style ∧ (interleaved segments os).EndsNumbers style := by
  induction segments generalizing os with
  | nil =>
      rw [interleaved]
      exact ⟨scans_nil, endsNumbers_nil⟩
  | cons segment segments ih =>
      obtain ⟨h_mark, h_ends⟩ := h_segments segment List.mem_cons_self
      cases os with
      | nil =>
          rw [interleaved]
          exact ⟨scans_text h_mark, endsNumbers_nil.text h_ends⟩
      | cons o os =>
          obtain ⟨h_scans, h_first⟩ := h_parts o List.mem_cons_self
          obtain ⟨h_rest, h_restEnds⟩ := ih
            (fun s h_s => h_segments s (List.mem_cons_of_mem segment h_s))
            (fun p h_p => h_parts p (List.mem_cons_of_mem o h_p))
          rw [interleaved]
          exact ⟨(h_scans.append h_rest h_restEnds).text h_mark,
            (h_first.append h_restEnds).text h_ends⟩

/-- The tokens in the text of a statement are the markers of its values, in order. For
    question marks, which are all alike, this is a matter of their number. -/
def Statement.ReadsBack (st : Statement) : MarkerStyle → Prop
  | .positional => dollarTokens st.sql.toList
      = (List.range st.values.size).map fun i => "$" ++ toString (i + 1)
  | .anonymous => st.sql.toList.count '?' = st.values.size

theorem Outline.Scans.readsBack {o : Outline} (h : o.Scans style) {values : Array Value}
    (h_values : values.toList = o.values) :
    Statement.ReadsBack ⟨o.sql style 0, values⟩ style := by
  have h_tokens := h 0
  rw [← h_values, Array.length_toList, Nat.zero_add] at h_tokens
  cases style with
  | positional =>
      show dollarTokens _ = _
      rw [MarkerStyle.tokens] at h_tokens
      rw [h_tokens, List.range'_eq_map_range, List.map_map]
      refine List.map_congr_left ?_
      intro i _
      rw [Function.comp_apply, Nat.add_comm 1 i]
      rfl
  | anonymous =>
      show List.count '?' _ = _
      have h_length := congrArg List.length h_tokens
      rw [MarkerStyle.tokens, List.length_replicate, List.length_map, List.length_range']
        at h_length
      exact h_length

namespace Construction

theorem exists_readsBack_of_compose {segments : List String} {xs : List Construction}
    (h_length : segments.length = xs.length + 1)
    (h_mark : ∀ s ∈ segments ++ xs.flatMap texts, style.mark ∉ s.toList)
    (h_digit : ∀ s ∈ segments ++ xs.flatMap raws, EndsNumber s.toList) (events : Array Event) :
    ∃ st, (compose segments (xs.map (·.fragment)) { style }).outcome events = (.ok st, events) ∧
      st.values.toList = xs.flatMap values ∧ st.ReadsBack style := by
  have h_part : ∀ x : Construction,
      x.fragment.stepsAll Step.isPlain = true ∧ x.fragment.outline.values = x.values :=
    fun x => ⟨x.spec.1, x.spec.2.2⟩
  have h_scans : (Outline.interleaved segments
      ((xs.map (·.fragment)).map Fragment.outline)).Scans style := by
    refine (Outline.scans_interleaved ?_ ?_).1
    · intro s h_s
      have h_mem : ∀ texts : List String, s ∈ segments ++ texts :=
        fun texts => List.mem_append_left texts h_s
      exact ⟨h_mark s (h_mem _), h_digit s (h_mem _)⟩
    · intro o h_o
      rw [List.map_map] at h_o
      obtain ⟨x, h_x, rfl⟩ := List.mem_map.mp h_o
      have h_mem : ∀ (texts : Construction → List String) (s : String), s ∈ texts x →
          s ∈ segments ++ xs.flatMap texts := by
        intro texts s h_s
        exact List.mem_append_right _ (List.mem_flatMap.mpr ⟨x, h_x, h_s⟩)
      constructor
      · exact x.scans_outline fun s h_s => h_mark s (h_mem texts s h_s)
      · exact x.endsNumbers_outline fun s h_s => h_digit s (h_mem raws s h_s)
  have h_values : ((#[] : Array Value) ++ xs.flatMap values).toList = xs.flatMap values := by simp
  refine ⟨_, outcome_compose h_length h_part { style } events, h_values, h_scans.readsBack ?_⟩
  rw [Outline.values_interleaved, List.map_map, List.flatMap_map]
  · simp [h_part]
  · rw [List.length_map, List.length_map]
    exact h_length

/-- The markers can be read back from every statement of segments and fragments, and of
    a template that calls have built, if no text of the program holds the mark of the
    style and no segment and no raw text starts with a digit: the values are those of the
    fragments, and the tokens are their markers. -/
theorem exists_readsBack :
    (∀ (style : MarkerStyle) (segments : List String) (xs : List Construction)
      (events : Array Event), segments.length = xs.length + 1 →
      (∀ s ∈ segments ++ xs.flatMap texts, style.mark ∉ s.toList) →
      (∀ s ∈ segments ++ xs.flatMap raws, EndsNumber s.toList) →
        ∃ st, (compose segments (xs.map (·.fragment)) { style }).outcome events
            = (.ok st, events) ∧ st.values.toList = xs.flatMap values ∧ st.ReadsBack style) ∧
    ∀ (style : MarkerStyle) (t : Template) (calls : List (Template.Call Construction))
      (events : Array Event), t.Reached (calls.map (.map (·.fragment))) →
      (∀ s ∈ t.segments.toList ++ (calls.filterMap Template.Call.filled?).flatMap texts,
        style.mark ∉ s.toList) →
      (∀ s ∈ t.segments.toList ++ (calls.filterMap Template.Call.filled?).flatMap raws,
        EndsNumber s.toList) →
        ∃ st, (t.render style).outcome events = (.ok st, events) ∧
          st.values.toList = (calls.filterMap Template.Call.filled?).flatMap values ∧
          st.ReadsBack style := by
  refine ⟨fun _ _ _ events h_length h_mark h_digit =>
    exists_readsBack_of_compose h_length h_mark h_digit events, ?_⟩
  intro style t calls events h h_mark h_digit
  have h_fragments : t.fragments.toList
      = ((calls.filterMap Template.Call.filled?).map (·.fragment)).map Filler.render := by
    rw [h.interleaves.fragments, Template.filterMap_filled_map]
  have h_length : t.closedSegments.toList.length
      = (calls.filterMap Template.Call.filled?).length + 1 := by
    have h_size := h.interleaves.size_closedSegments
    rw [← Array.length_toList, ← Array.length_toList, h_fragments, List.length_map,
      List.length_map] at h_size
    exact h_size
  -- A template that ends in a fragment is closed by an empty segment.
  have h_closed : ∀ {P : String → Prop} {texts : List String}, P "" →
      (∀ s ∈ t.segments.toList ++ texts, P s) →
      ∀ s ∈ t.closedSegments.toList ++ texts, P s := by
    intro P texts h_empty h_all s h_s
    rcases List.mem_append.mp h_s with h_segment | h_text
    · rcases Template.mem_closedSegments h_segment with h_segment | rfl
      · exact h_all s (List.mem_append_left _ h_segment)
      · exact h_empty
    · exact h_all s (List.mem_append_right _ h_text)
  rw [Template.render, h_fragments, compose_map_render]
  exact exists_readsBack_of_compose h_length (h_closed (by simp) h_mark)
    (h_closed endsNumber_nil h_digit) events

/-- A list of values in a group, and a bound right behind it. -/
theorem exists_readsBack_page :
    let list : Leaf := .comparison "b IN" (some (.list [.int 8, .int 9]))
    let x : Construction := ⟨.group .and [.leaf list], .group .and [.comparison "b IN" _],
      #[], #[], rfl⟩
    let y : Construction := ⟨.leaf (.bound .limit (some 5)), .bound .limit _, #[], #[], rfl⟩
    let t := (((Template.ofText "WHERE ").fill x.fragment).fill y.fragment).text ";"
    (∀ s ∈ ["WHERE ", "", ";"] ++ [x, y].flatMap texts, '$' ∉ s.toList) ∧
      (∀ s ∈ ["WHERE ", "", ";"] ++ [x, y].flatMap raws, EndsNumber s.toList) ∧
      (compose ["WHERE ", "", ";"] [x.fragment, y.fragment] ⟨.positional, #[]⟩).outcome #[]
        = (.ok ⟨"WHERE ( b IN ( $1, $2 ) )LIMIT $3;", #[.int 8, .int 9, .int 5]⟩, #[]) ∧
      dollarTokens "WHERE ( b IN ( $1, $2 ) )LIMIT $3;".toList = ["$1", "$2", "$3"] ∧
      t.Reached ([.text "WHERE ", .fill x, .fill y, .text ";"].map (.map (·.fragment))) ∧
      ∃ st, (t.render .positional).outcome #[] = (.ok st, #[]) ∧
        st.values.toList = [.int 8, .int 9, .int 5] ∧ st.ReadsBack .positional := by
  intro list x y t
  have h_mark : ∀ s ∈ ["WHERE ", "", ";"] ++ [x, y].flatMap texts, '$' ∉ s.toList := by
    have h_texts : [x, y].flatMap texts = ["b IN"] := rfl
    rw [h_texts]
    decide
  have h_digit : ∀ s ∈ ["WHERE ", "", ";"] ++ [x, y].flatMap raws, EndsNumber s.toList := by
    have h_raws : [x, y].flatMap raws = [] := rfl
    rw [h_raws]
    decide
  have h_reached :
      t.Reached ([.text "WHERE ", .fill x, .fill y, .text ";"].map (.map (·.fragment))) :=
    (((Template.Reached.ofText "WHERE ").call (.fill x.fragment)).call (.fill y.fragment)).call
      (.text ";")
  obtain ⟨h_compose, h_template⟩ := exists_readsBack
  obtain ⟨st, h_st, -, h_reads⟩ :=
    h_compose .positional ["WHERE ", "", ";"] [x, y] #[] rfl h_mark h_digit
  have h_text :
      (compose ["WHERE ", "", ";"] [x.fragment, y.fragment] ⟨.positional, #[]⟩).outcome #[]
      = (.ok ⟨"WHERE ( b IN ( $1, $2 ) )LIMIT $3;", #[.int 8, .int 9, .int 5]⟩, #[]) := rfl
  refine ⟨h_mark, h_digit, h_text, ?_, h_reached, ?_⟩
  · have h_same := h_st.symm.trans h_text
    rw [Prod.mk.injEq, Except.ok.injEq] at h_same
    rw [h_same.1] at h_reads
    exact h_reads
  · exact h_template .positional t [.text "WHERE ", .fill x, .fill y, .text ";"] #[] h_reached
      h_mark h_digit

end Construction

end SqlCompose
