/-
  SqlCompose.Proofs.Text.Blank

  Texts with blanks in known places. Where a text is put together from blanks and from
  parts without, the cuts give the parts back:

    * `trimBlanks_append`    -- blanks on both sides are taken away, and no more;
    * `exists_eq_trimBlanks` -- what is taken away from any text are blanks on both sides;
    * `cutAtBlank_append`    -- a text is cut at the first blank;
    * `words_blanks_append`  -- blanks in front of words do not matter.

  Writing letters in upper case makes and takes no blank (`isBlank_toUpper`).
-/
import SqlCompose.Text.Blank

namespace SqlCompose.Text

/-- `cs` holds nothing but blanks. -/
def Blanks (cs : List Char) : Prop := ∀ c ∈ cs, isBlank c = true

/-- `cs` holds no blank. -/
def BlankFree (cs : List Char) : Prop := ∀ c ∈ cs, isBlank c = false

instance (cs : List Char) : Decidable (Blanks cs) :=
  decidable_of_iff (cs.all isBlank = true) List.all_eq_true

instance (cs : List Char) : Decidable (BlankFree cs) :=
  decidable_of_iff (cs.all (!isBlank ·) = true) (by simp [BlankFree])

/-- The visible characters of ASCII are no blanks. -/
theorem isBlank_of_visible {c : Char} (h_low : 33 ≤ c.toNat) (h_high : c.toNat ≤ 126) :
    isBlank c = false := by
  rw [← Bool.not_eq_true, isBlank, CodePoints.contains_iff]
  rintro ⟨range, h_range, h_first, h_last⟩
  have h_outside : ∀ range ∈ blanks, range.2 < 33 ∨ 126 < range.1 := by decide
  rcases h_outside range h_range with h_below | h_above
  · omega
  · omega

theorem startsWord_append {cs : List Char} (h : startsWord cs = true) (rest : List Char) :
    startsWord (cs ++ rest) = true := by
  cases cs with
  | nil => simp [startsWord] at h
  | cons c cs => exact h

/-- The first character decides. -/
theorem startsWord_cons (c : Char) (cs : List Char) : startsWord (c :: cs) = !isBlank c := rfl

theorem startsWord_append_of_ne_nil {cs : List Char} (h : cs ≠ []) (rest : List Char) :
    startsWord (cs ++ rest) = startsWord cs := by
  obtain ⟨c, cs, rfl⟩ := List.exists_cons_of_ne_nil h
  rfl

/-- A text ends as it does behind its first character, if there is more of it. -/
theorem endsWord_cons {c : Char} {cs : List Char} (h_some : cs ≠ []) :
    startsWord (c :: cs).reverse = startsWord cs.reverse := by
  rw [List.reverse_cons, startsWord_append_of_ne_nil (List.reverse_ne_nil_iff.mpr h_some)]

theorem startsWord_blanks_append {gap : List Char} (h_some : gap ≠ []) (h : Blanks gap)
    (cs : List Char) : startsWord (gap ++ cs) = false := by
  rw [startsWord_append_of_ne_nil h_some]
  obtain ⟨b, gap, rfl⟩ := List.exists_cons_of_ne_nil h_some
  rw [startsWord_cons, h b List.mem_cons_self, Bool.not_true]

/-! ## Trimming -/

theorem dropWhile_blanks_append {gap cs : List Char} (h : Blanks gap)
    (h_start : startsWord cs = true) : (gap ++ cs).dropWhile isBlank = cs := by
  rw [List.dropWhile_append_of_pos h]
  cases cs with
  | nil => rfl
  | cons c cs =>
      rw [startsWord_cons, Bool.not_eq_true'] at h_start
      rw [List.dropWhile_cons_of_neg (by rw [h_start]; exact Bool.false_ne_true)]

/-- A text that starts and ends with a word is what is left of it between blanks. -/
theorem trimBlanks_append {lead core trail : List Char} (h_lead : Blanks lead)
    (h_trail : Blanks trail) (h_start : startsWord core = true)
    (h_end : startsWord core.reverse = true) : trimBlanks (lead ++ core ++ trail) = core := by
  have h_front : (lead ++ (core ++ trail)).dropWhile isBlank = core ++ trail :=
    dropWhile_blanks_append h_lead (startsWord_append h_start trail)
  have h_back : Blanks trail.reverse := fun c h_c => h_trail c (List.mem_reverse.mp h_c)
  rw [trimBlanks, List.append_assoc, h_front, List.reverse_append,
    dropWhile_blanks_append h_back h_end, List.reverse_reverse]

/-- What is left without the blanks in front starts with a word. -/
theorem startsWord_dropWhile {cs : List Char} (h : cs.dropWhile isBlank ≠ []) :
    startsWord (cs.dropWhile isBlank) = true := by
  obtain ⟨c, rest, h_rest⟩ := List.exists_cons_of_ne_nil h
  have h_first := List.head?_dropWhile_not isBlank cs
  rw [h_rest] at h_first
  rw [h_rest, startsWord_cons]
  simpa using h_first

theorem blanks_takeWhile (cs : List Char) : Blanks (cs.takeWhile isBlank) :=
  fun _ h_c => List.all_eq_true.mp List.all_takeWhile _ h_c

/-- What trimming takes away are blanks on both sides. -/
theorem exists_eq_trimBlanks (cs : List Char) :
    ∃ lead trail, Blanks lead ∧ Blanks trail ∧ cs = lead ++ trimBlanks cs ++ trail := by
  refine ⟨cs.takeWhile isBlank, ((cs.dropWhile isBlank).reverse.takeWhile isBlank).reverse,
    blanks_takeWhile cs, fun c h_c => blanks_takeWhile _ c (List.mem_reverse.mp h_c), ?_⟩
  have h_back : trimBlanks cs ++ ((cs.dropWhile isBlank).reverse.takeWhile isBlank).reverse
      = cs.dropWhile isBlank := by
    rw [trimBlanks, ← List.reverse_append, List.takeWhile_append_dropWhile, List.reverse_reverse]
  rw [List.append_assoc, h_back, List.takeWhile_append_dropWhile]

/-- What trimming leaves ends with a word. -/
theorem endsWord_trimBlanks {cs : List Char} (h : trimBlanks cs ≠ []) :
    startsWord (trimBlanks cs).reverse = true := by
  rw [trimBlanks, List.reverse_reverse]
  apply startsWord_dropWhile
  intro h_nil
  exact h (by rw [trimBlanks, h_nil, List.reverse_nil])

/-! ## Cutting -/

theorem cutAtBlank_append {before : List Char} {b : Char} (h : BlankFree before)
    (h_blank : isBlank b = true) (after : List Char) :
    cutAtBlank (before ++ b :: after) = some (before, after) := by
  have h_before : ∀ c ∈ before, (!isBlank c) = true := by
    intro c h_c
    rw [h c h_c]
    rfl
  rw [cutAtBlank, List.dropWhile_append_of_pos h_before, List.takeWhile_append_of_pos h_before]
  simp [h_blank]

/-- A text with a blank has a first one. -/
theorem exists_first_blank {cs : List Char} (h : ¬BlankFree cs) :
    ∃ before b after, cs = before ++ b :: after ∧ isBlank b = true ∧ BlankFree before := by
  have h_some : (cs.find? isBlank).isSome = true := by
    rw [List.find?_isSome]
    simpa [BlankFree] using h
  obtain ⟨b, h_b⟩ := Option.isSome_iff_exists.mp h_some
  obtain ⟨h_isBlank, before, after, h_cs, h_free⟩ := List.find?_eq_some_iff_append.mp h_b
  exact ⟨before, b, after, h_cs, h_isBlank, fun d h_d => by simpa using h_free d h_d⟩

/-- Behind a blank in a text that ends with a word there is a word, perhaps behind more
    blanks. -/
theorem exists_word_of_blank {before after : List Char} {b : Char} (h_blank : isBlank b = true)
    (h_end : startsWord (before ++ b :: after).reverse = true) :
    ∃ gap word, after = gap ++ word ∧ Blanks gap ∧ startsWord word = true ∧
      startsWord word.reverse = true := by
  have h_split := List.takeWhile_append_dropWhile (p := isBlank) (l := after)
  have h_gap := blanks_takeWhile after
  have h_word (h_rest : after.dropWhile isBlank ≠ []) := startsWord_dropWhile h_rest
  generalize after.takeWhile isBlank = gap at h_split h_gap
  generalize after.dropWhile isBlank = word at h_split h_word
  rw [← h_split, List.reverse_append, ← List.cons_append, List.reverse_append] at h_end
  have h_gaps : Blanks (b :: gap) := List.forall_mem_cons.mpr ⟨h_blank, h_gap⟩
  have h_some : word ≠ [] := by
    rintro rfl
    have h_backwards : Blanks (b :: gap).reverse :=
      fun c h_c => h_gaps c (List.mem_reverse.mp h_c)
    rw [List.reverse_nil, List.nil_append, startsWord_blanks_append (by simp) h_backwards] at h_end
    cases h_end
  rw [List.append_assoc, startsWord_append_of_ne_nil (List.reverse_ne_nil_iff.mpr h_some)] at h_end
  exact ⟨gap, word, h_split.symm, h_gap, h_word h_some, h_end⟩

/-! ## Words -/

theorem words_blanks_append {gap : List Char} (h : Blanks gap) (cs : List Char) :
    words (gap ++ cs) = words cs := by
  induction gap with
  | nil => rfl
  | cons b gap ih =>
      rw [List.cons_append, words, if_pos (h b List.mem_cons_self)]
      exact ih fun c h_c => h c (List.mem_cons_of_mem b h_c)

/-! ## Upper case -/

theorem isBlank_toUpper_letter : ∀ n : Fin 26,
    isBlank (Char.ofNat (97 + n)).toUpper = isBlank (Char.ofNat (97 + n)) := by decide

/-- Letters are no blanks, in either case. -/
theorem isBlank_toUpper (c : Char) : isBlank c.toUpper = isBlank c := by
  by_cases h : 'a'.val ≤ c.val ∧ c.val ≤ 'z'.val
  · have h_low : 97 ≤ c.toNat := h.1
    have h_high : c.toNat ≤ 122 := h.2
    have h_letter := isBlank_toUpper_letter ⟨c.toNat - 97, by omega⟩
    have h_code : 97 + (c.toNat - 97) = c.toNat := by omega
    rw [h_code, Char.ofNat_toNat] at h_letter
    exact h_letter
  · have h_same : c.toUpper = c := dif_neg h
    rw [h_same]

end SqlCompose.Text
