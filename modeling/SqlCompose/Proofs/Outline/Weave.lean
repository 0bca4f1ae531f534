/-
  SqlCompose.Proofs.Outline.Weave

  Rendering as texts and markers in turn. Every fragment with plain steps has texts
  `t₀, t₁, ..., tₙ` and values `v₁, ..., vₙ` of its own, and on a collector that
  holds `k` values it writes `t₀ m₁ t₁ ... mₙ tₙ`, where `mᵢ` is a dollar sign with the
  number `k + i`, or a question mark, and leaves `v₁, ..., vₙ` behind the values of the
  collector (`Fragment.exists_render_eq_weave`). So the `i`-th marker stands for the
  `i`-th new value, and neither the collector nor the style touches anything else.
-/
import SqlCompose.Proofs.Outline.Render

namespace SqlCompose

/-- The markers of values bound after `bound` others, each with the text behind it. -/
def Outline.weave (style : MarkerStyle) (bound : Nat) : List (Value × String) → String
  | [] => ""
  | (_, sql) :: rest =>
    let marker :=
      match style with
      | .positional => "$" ++ toString (bound + 1)
      | .anonymous => "?"
    marker ++ sql ++ weave style (bound + 1) rest

theorem Outline.weave_cons (style : MarkerStyle) (bound : Nat) (v : Value) (sql : String)
    (rest : List (Value × String)) :
    weave style bound ((v, sql) :: rest)
      = style.marker (bound + 1) ++ sql ++ weave style (bound + 1) rest := by
  cases style with
  | positional => rfl
  | anonymous => rfl

/-- Texts in a row are one text, so an outline is a text and then values with the
    texts behind them. -/
theorem Outline.exists_weave (o : Outline) :
    ∃ (lead : String) (rest : List (Value × String)),
      o.values = rest.map Prod.fst ∧
        ∀ style bound, o.sql style bound = lead ++ weave style bound rest := by
  induction o with
  | nil => exact ⟨"", [], rfl, fun _ _ => rfl⟩
  | cons p o ih =>
      obtain ⟨lead, rest, h_values, h_sql⟩ := ih
      cases p with
      | text s =>
          -- The text joins the one behind it.
          refine ⟨s ++ lead, rest, h_values, ?_⟩
          intro style bound
          rw [Outline.sql, h_sql, String.append_assoc]
      | value v =>
          -- The text in front of the value is empty; what led so far stands behind it.
          refine ⟨"", (v, lead) :: rest, ?_, ?_⟩
          · rw [Outline.values, h_values, List.map_cons]
          · intro style bound
            rw [Outline.sql, h_sql, weave_cons, String.empty_append, String.append_assoc]

/-- Texts and values of a fragment alone: what it writes on a collector are its texts
    with the markers of the next places between them, and what it binds are its values
    in the order of the markers. The values are those of its outline. -/
theorem Fragment.exists_render_eq_weave (f : Fragment)
    (h_plain : f.stepsAll Step.isPlain = true) :
    ∃ (lead : String) (rest : List (Value × String)), rest.map Prod.fst = f.outline.values ∧
      ∀ c : Collector,
        c.run f.render
          = (lead ++ Outline.weave c.style c.values.size rest,
              { c with values := c.values ++ rest.map Prod.fst }) := by
  obtain ⟨lead, rest, h_values, h_sql⟩ := f.outline.exists_weave
  refine ⟨lead, rest, h_values.symm, ?_⟩
  intro c
  rw [f.binds_outline h_plain c]
  show (f.outline.sql c.style c.values.size, c.holding f.outline.values) = _
  rw [h_sql, h_values]
  rfl

/-- A disjunction with a comparison that drops out, a list and a fragment written by
    hand, under a WHERE. -/
theorem Fragment.exists_render_eq_weave_disjunction :
    let f : Fragment := .filtered (Condition.or
      [.comparison "a =" none, .comparison "id IN" (some (.list [.int 1, .int 2])),
        .fragment (.script [.text "x = ", .bind (.text "$1"), .condition (.text "")])])
    f.stepsAll Step.isPlain = true ∧
      (Collector.run ⟨.positional, #[.null]⟩ f.render).1
        = "WHERE ( id IN ( $2, $3 ) OR x = $4<none> )" ∧
      ∃ (lead : String) (rest : List (Value × String)),
        rest.map Prod.fst = [.int 1, .int 2, .text "$1"] ∧
        ∀ c : Collector,
          c.run f.render
            = (lead ++ Outline.weave c.style c.values.size rest,
                { c with values := c.values ++ rest.map Prod.fst }) := by
  intro f
  have h_values : f.outline.values = [.int 1, .int 2, .text "$1"] := rfl
  obtain ⟨lead, rest, h_rest, h_run⟩ := f.exists_render_eq_weave rfl
  exact ⟨rfl, by decide, lead, rest, h_rest.trans h_values, h_run⟩

end SqlCompose
