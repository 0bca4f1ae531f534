/-
  SqlCompose.Proofs.Scan.Text

  Finding the markers in a text, by looking at its characters alone. A token of the
  positional style is a dollar sign with all the digits behind it, and one of the
  anonymous style is a question mark.

    * `dollarTokens cs`    -- the tokens `$1`, `$20`, ... of `cs`, from left to right;
    * `style.tokens cs`    -- the tokens of either style.

  Tokens of two texts side by side are those of the one and then those of the other,
  but only if the second one does not start with a digit, which would go on with a
  token at the end of the first one (`tokens_append`). Behind a text without the mark
  of the style this does not matter (`tokens_append_of_notMem`).
-/
import Mathlib.Data.List.TakeWhile
import SqlCompose.Proofs.Marker

namespace SqlCompose

/-- Every dollar sign that a digit follows, with all the digits that follow it. -/
def dollarTokens : List Char → List String
  | [] => []
  | c :: cs =>
    let digits := cs.takeWhile Char.isDigit
    -- The digits hold no dollar sign, so they can be looked at again.
    if c = '$' ∧ digits ≠ [] then String.ofList (c :: digits) :: dollarTokens cs
    else dollarTokens cs

/-- The text does not start with a digit, so that a number in front of it ends there. -/
def EndsNumber (cs : List Char) : Prop := ∀ c ∈ cs.head?, c.isDigit = false

instance : DecidablePred EndsNumber := fun cs =>
  decidable_of_iff (cs.head?.all (!·.isDigit) = true) (by cases cs <;> simp [EndsNumber])

theorem endsNumber_nil : EndsNumber [] := by
  intro c h
  simp at h

theorem endsNumber_cons {c : Char} (cs : List Char) (h : c.isDigit = false) :
    EndsNumber (c :: cs) := by
  intro d h_d
  rw [List.head?_cons, Option.mem_some_iff] at h_d
  rw [← h_d]
  exact h

theorem EndsNumber.append {as bs : List Char} (ha : EndsNumber as) (hb : EndsNumber bs) :
    EndsNumber (as ++ bs) := by
  cases as with
  | nil => exact hb
  | cons a as => exact endsNumber_cons _ (ha a rfl)

/-! ## Dollar signs -/

theorem takeWhile_isDigit_append {cs bs : List Char} (h : EndsNumber bs) :
    (cs ++ bs).takeWhile Char.isDigit = cs.takeWhile Char.isDigit := by
  induction cs with
  | nil =>
      cases bs with
      | nil => rfl
      | cons b bs =>
          have h_b : b.isDigit = false := h b rfl
          simp [h_b]
  | cons c cs ih =>
      rw [List.cons_append, List.takeWhile_cons, List.takeWhile_cons, ih]

theorem dollarTokens_append {as bs : List Char} (h : EndsNumber bs) :
    dollarTokens (as ++ bs) = dollarTokens as ++ dollarTokens bs := by
  induction as with
  | nil => rfl
  | cons a as ih =>
      rw [List.cons_append, dollarTokens, dollarTokens, takeWhile_isDigit_append h, ih]
      by_cases h_token : a = '$' ∧ as.takeWhile Char.isDigit ≠ []
      · rw [if_pos h_token, if_pos h_token]
        rfl
      · rw [if_neg h_token, if_neg h_token]

theorem dollarTokens_append_of_notMem {as bs : List Char} (h : '$' ∉ as) :
    dollarTokens (as ++ bs) = dollarTokens bs := by
  induction as with
  | nil => rfl
  | cons a as ih =>
      rw [List.mem_cons, not_or] at h
      rw [List.cons_append, dollarTokens, if_neg fun h_token => h.1 h_token.1.symm]
      exact ih h.2

theorem dollarTokens_of_notMem {cs : List Char} (h : '$' ∉ cs) : dollarTokens cs = [] := by
  have h_append : dollarTokens (cs ++ []) = [] := dollarTokens_append_of_notMem h
  rw [List.append_nil] at h_append
  exact h_append

/-- A marker is one token. -/
theorem dollarTokens_marker (position : Nat) :
    dollarTokens (MarkerStyle.positional.marker position).toList
      = [MarkerStyle.positional.marker position] := by
  have h_chars := MarkerStyle.toList_positional position
  have h_digits : ∀ c ∈ Nat.toDigits 10 position, c.isDigit = true :=
    fun c h_c => MarkerStyle.isDigit_of_mem h_c
  have h_run : (Nat.toDigits 10 position).takeWhile Char.isDigit = Nat.toDigits 10 position := by
    rw [List.takeWhile_eq_self_iff]
    exact h_digits
  have h_rest : '$' ∉ Nat.toDigits 10 position := by
    intro h_mark
    exact absurd (h_digits '$' h_mark) (by decide)
  rw [h_chars, dollarTokens, h_run, if_pos ⟨rfl, Nat.toDigits_ne_nil⟩,
    dollarTokens_of_notMem h_rest, ← h_chars, String.ofList_toList]

/-! ## Both styles -/

namespace MarkerStyle

/-- The character that the markers of a style start with. -/
def mark : MarkerStyle → Char
  | .positional => '$'
  | .anonymous => '?'

/-- A text that holds neither mark does not hold the one of a style. -/
theorem mark_notMem (style : MarkerStyle) {cs : List Char} (h : '$' ∉ cs ∧ '?' ∉ cs) :
    style.mark ∉ cs := by
  cases style with
  | positional => exact h.1
  | anonymous => exact h.2

/-- The tokens of a text, from left to right. -/
def tokens (style : MarkerStyle) (cs : List Char) : List String :=
  match style with
  | .positional => dollarTokens cs
  | .anonymous => List.replicate (cs.count '?') "?"

theorem tokens_append (style : MarkerStyle) {as bs : List Char} (h : EndsNumber bs) :
    style.tokens (as ++ bs) = style.tokens as ++ style.tokens bs := by
  cases style with
  | positional => exact dollarTokens_append h
  | anonymous => simp only [tokens, List.count_append, List.replicate_append_replicate]

theorem tokens_append_of_notMem (style : MarkerStyle) {as bs : List Char} (h : style.mark ∉ as) :
    style.tokens (as ++ bs) = style.tokens bs := by
  cases style with
  | positional => exact dollarTokens_append_of_notMem h
  | anonymous =>
      have h_count : as.count '?' = 0 := List.count_eq_zero.mpr h
      simp only [tokens, List.count_append, h_count, Nat.zero_add]

theorem tokens_marker (style : MarkerStyle) (position : Nat) :
    style.tokens (style.marker position).toList = [style.marker position] := by
  cases style with
  | positional => exact dollarTokens_marker position
  | anonymous =>
      rw [toList_anonymous]
      rfl

end MarkerStyle

end SqlCompose
