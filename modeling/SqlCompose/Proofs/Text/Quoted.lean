/-
  SqlCompose.Proofs.Text.Quoted

  What is read as a quoted text is what is written as one. `readQuoted_eq_some_iff` is the
  whole law: a text is read up to a closing mark if and only if it stands there with its
  marks doubled and no second mark follows the closing one.
-/
import SqlCompose.Text.Quoted

namespace SqlCompose.Text

/-- What is read up to the closing mark is the text with its marks doubled. -/
theorem eq_doubled_of_readQuoted {q : Char} {cs text after : List Char}
    (h : readQuoted q cs = some (text, after)) :
    cs = doubled q text ++ q :: after := by
  fun_induction readQuoted q cs generalizing text after with
  | case1 => simp at h
  | case2 =>
      simp only [Option.some.injEq, Prod.mk.injEq] at h
      obtain ⟨rfl, rfl⟩ := h
      rfl
  | case3 => simp at h
  | case4 rest ih =>
      -- Two marks in a row are one mark of the text.
      obtain ⟨⟨t, a⟩, h_read, h_eq⟩ := Option.map_eq_some_iff.mp h
      simp only [Prod.mk.injEq] at h_eq
      obtain ⟨rfl, rfl⟩ := h_eq
      rw [ih h_read, doubled, if_pos rfl]
      rfl
  | case5 d rest h_d =>
      simp only [Option.some.injEq, Prod.mk.injEq] at h
      obtain ⟨rfl, rfl⟩ := h
      rfl
  | case6 c d rest h_c ih =>
      obtain ⟨⟨t, a⟩, h_read, h_eq⟩ := Option.map_eq_some_iff.mp h
      simp only [Prod.mk.injEq] at h_eq
      obtain ⟨rfl, rfl⟩ := h_eq
      rw [ih h_read, doubled, if_neg h_c]
      rfl

theorem doubled_eq_nil_iff {q : Char} {cs : List Char} : doubled q cs = [] ↔ cs = [] := by
  cases cs with
  | nil => simp [doubled]
  | cons c cs =>
      rw [doubled]
      by_cases h_c : c = q
      · simp [h_c]
      · simp [h_c]

/-- Doubling marks puts in no other characters, and leaves none out. -/
theorem mem_doubled_iff {q c : Char} {cs : List Char} : c ∈ doubled q cs ↔ c ∈ cs := by
  induction cs with
  | nil => rfl
  | cons d cs ih =>
      rw [doubled, List.mem_cons]
      by_cases h_d : d = q
      · rw [if_pos h_d, List.mem_cons, List.mem_cons, ih, h_d, or_self_left]
      · rw [if_neg h_d, List.mem_cons, ih]

/-- A text with its marks doubled is read through, whatever follows it. -/
theorem readQuoted_doubled (q : Char) (text after : List Char) :
    readQuoted q (doubled q text ++ after)
      = (readQuoted q after).map fun (more, rest) => (text ++ more, rest) := by
  induction text with
  | nil => simp [doubled]
  | cons c cs ih =>
      by_cases h_c : c = q
      · subst h_c
        simp only [doubled, if_pos, List.cons_append, readQuoted, ih, Option.map_map]
        rfl
      · simp only [doubled, if_neg h_c, List.cons_append]
        cases h_next : doubled q cs ++ after with
        | nil =>
            -- Nothing follows the character, and no mark closes the text.
            obtain ⟨-, rfl⟩ := List.append_eq_nil_iff.mp h_next
            simp [readQuoted, h_c]
        | cons d rest =>
            rw [h_next] at ih
            simp only [readQuoted, if_neg h_c, ih, Option.map_map]
            rfl

/-- A text is read up to the closing mark if it stands there with its marks doubled, and
    no second mark follows the closing one. -/
theorem readQuoted_eq_some_iff {q : Char} {cs text after : List Char} :
    readQuoted q cs = some (text, after) ↔
      cs = doubled q text ++ q :: after ∧ after.head? ≠ some q := by
  constructor
  · intro h
    have h_cs := eq_doubled_of_readQuoted h
    refine ⟨h_cs, ?_⟩
    intro h_mark
    obtain ⟨rest, rfl⟩ := List.head?_eq_some_iff.mp h_mark
    -- The two marks would be one of the text, which then is longer than it is.
    rw [h_cs, readQuoted_doubled] at h
    obtain ⟨⟨more, tail⟩, h_more, h_eq⟩ := Option.map_eq_some_iff.mp h
    simp only [readQuoted, if_pos] at h_more
    obtain ⟨⟨inner, last⟩, -, h_inner⟩ := Option.map_eq_some_iff.mp h_more
    obtain ⟨rfl, rfl⟩ := Prod.mk.inj h_inner
    have h_length := congrArg List.length (Prod.mk.inj h_eq).1
    simp at h_length
  · rintro ⟨rfl, h_mark⟩
    exact readQuoted_doubled_append q text after h_mark

end SqlCompose.Text
