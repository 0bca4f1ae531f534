/-
  SqlCompose.Proofs.Text.Spelling

  Other spellings of a text: `Spells text written` says that `written` is `text` up to
  the case of its ASCII letters, and with any blanks, at least one, for a space. A
  spelling has the words of its text, in another case (`Spells.words_eq`).

  `SpelledAlike` compares two texts that are written by hand with each other, without
  saying what they spell. Every text between words is a spelling of its words in upper
  case (`spells_joinedWords`), so such texts are spelled alike if and only if their words
  agree in upper case (`joinedWords_eq_iff`).
-/
import SqlCompose.Proofs.Text.Blank

namespace SqlCompose.Text

/-- `written` is `text`, letters in either case and spaces as any blanks. -/
inductive Spells : List Char → List Char → Prop where
  | nil : Spells [] []
  | char {c d : Char} {text written : List Char} (h : c.toUpper = d) (h_word : isBlank d = false)
      (h_rest : Spells text written) : Spells (d :: text) (c :: written)
  | space {gap text written : List Char} (h_some : gap ≠ []) (h_blanks : Blanks gap)
      (h_rest : Spells text written) : Spells (' ' :: text) (gap ++ written)

/-- A character of a spelling is a blank if the one that it stands for is. -/
theorem isBlank_of_toUpper {c d : Char} (h : c.toUpper = d) : isBlank c = isBlank d := by
  rw [← h, isBlank_toUpper]

theorem Spells.startsWord_eq {text written : List Char} (h : Spells text written) :
    startsWord written = startsWord text := by
  cases h with
  | nil => rfl
  | char h h_word h_rest => rw [startsWord_cons, startsWord_cons, isBlank_of_toUpper h]
  | space h_some h_blanks h_rest =>
      rw [startsWord_blanks_append h_some h_blanks]
      rfl

/-- A spelling has the words of its text. -/
theorem Spells.words_eq {text written : List Char} (h : Spells text written) :
    (words written).map (List.map Char.toUpper) = words text := by
  induction h with
  | nil => rfl
  | @char c d text written h h_word h_rest ih =>
      have h_c : isBlank c = false := (isBlank_of_toUpper h).trans h_word
      rw [words, words, h_c, h_word, h_rest.startsWord_eq, ← ih]
      cases h_next : startsWord text with
      | false => simp [h]
      | true =>
          -- The character goes on with the first word, in the spelling as in the text.
          obtain ⟨w, ws, h_words⟩ := words_of_startsWord (h_rest.startsWord_eq.trans h_next)
          simp [h_words, h]
  | space h_some h_blanks h_rest ih =>
      rw [words_blanks_append h_blanks, ih]
      rfl

/-- A spelling ends with a word if its text does. -/
theorem Spells.endsWord {text written : List Char} (h : Spells text written)
    (h_end : startsWord text.reverse = true) : startsWord written.reverse = true := by
  induction h with
  | nil => exact h_end
  | @char c d text written h h_word h_rest ih =>
      rw [List.reverse_cons]
      cases text with
      | nil =>
          cases h_rest with
          | nil => simp [startsWord, isBlank_of_toUpper h, h_word]
      | cons e text =>
          rw [endsWord_cons (List.cons_ne_nil e text)] at h_end
          exact startsWord_append (ih h_end) [c]
  | @space gap text written h_some h_blanks h_rest ih =>
      rw [List.reverse_append]
      cases text with
      | nil => exact absurd h_end (by decide)
      | cons e text =>
          rw [endsWord_cons (List.cons_ne_nil e text)] at h_end
          exact startsWord_append (ih h_end) gap.reverse

example : Spells "NOT IN".toList "noT \t in".toList :=
  .char rfl rfl (.char rfl rfl (.char rfl rfl (.space (List.cons_ne_nil ' ' ['\t', ' ']) (by decide)
    (.char rfl rfl (.char rfl rfl .nil)))))

/-! ## The canonical spelling -/

/-- The words of a text in upper case, with one space between any two of them. -/
def joinedWords (cs : List Char) : List Char :=
  [' '].intercalate ((words cs).map (List.map Char.toUpper))

theorem joinedWords_cons_blank {c : Char} (h_c : isBlank c = true) (cs : List Char) :
    joinedWords (c :: cs) = joinedWords cs := by
  rw [joinedWords, words, if_pos h_c, joinedWords]

/-- A character that goes on with a word. -/
theorem joinedWords_cons_word {c : Char} {cs : List Char} (h_c : isBlank c = false)
    (h_next : startsWord cs = true) : joinedWords (c :: cs) = c.toUpper :: joinedWords cs := by
  obtain ⟨w, ws, h_words⟩ := words_of_startsWord h_next
  rw [joinedWords, joinedWords, words, h_c, h_next, h_words]
  cases ws <;> simp [List.intercalate]

/-- A character that ends a word, and there is a next word. -/
theorem joinedWords_cons_gap {c : Char} {cs : List Char} (h_c : isBlank c = false)
    (h_next : startsWord cs = false) (h_words : words cs ≠ []) :
    joinedWords (c :: cs) = c.toUpper :: ' ' :: joinedWords cs := by
  obtain ⟨w, ws, h_ws⟩ := List.exists_cons_of_ne_nil h_words
  rw [joinedWords, joinedWords, words, h_c, h_next, h_ws]
  simp [List.intercalate]

/-- A text that ends with a word has words. -/
theorem words_ne_nil_of_endsWord {cs : List Char} (h : startsWord cs.reverse = true) :
    words cs ≠ [] := by
  intro h_none
  obtain ⟨c, rest, h_cs⟩ := List.exists_cons_of_ne_nil (l := cs.reverse) (by
    rintro h_nil
    rw [h_nil] at h
    cases h)
  rw [h_cs, startsWord_cons] at h
  have h_c : c ∈ cs.filter (!isBlank ·) :=
    List.mem_filter.mpr ⟨List.mem_reverse.mp (h_cs ▸ List.mem_cons_self), h⟩
  rw [← flatten_words, h_none] at h_c
  exact absurd h_c List.not_mem_nil

/-- A text that ends with a word is a spelling of its words, up to blanks in front. -/
theorem exists_spells_joinedWords {cs : List Char} (h_end : startsWord cs.reverse = true) :
    ∃ gap rest, cs = gap ++ rest ∧ Blanks gap ∧ (gap = [] ↔ startsWord cs = true) ∧
      Spells (joinedWords cs) rest := by
  induction cs with
  | nil => exact absurd h_end (by decide)
  | cons c cs ih =>
      rcases List.eq_nil_or_concat cs with rfl | ⟨init, last, h_cs⟩
      · have h_c : isBlank c = false := by simpa [startsWord] using h_end
        refine ⟨[], [c], rfl, by simp [Blanks], by simp [startsWord, h_c], ?_⟩
        simp only [joinedWords, words, h_c, startsWord]
        exact .char rfl ((isBlank_toUpper c).trans h_c) .nil
      have h_some : cs ≠ [] := by simp [h_cs]
      rw [endsWord_cons h_some] at h_end
      obtain ⟨gap, rest, h_rest, h_gap, h_nil, h_spells⟩ := ih h_end
      cases h_c : isBlank c with
      | true =>
          -- One blank more in front of the first word.
          refine ⟨c :: gap, rest, by rw [h_rest, List.cons_append],
            List.forall_mem_cons.mpr ⟨h_c, h_gap⟩, by simp [startsWord_cons, h_c], ?_⟩
          rw [joinedWords_cons_blank h_c]
          exact h_spells
      | false =>
          have h_word : isBlank c.toUpper = false := (isBlank_toUpper c).trans h_c
          refine ⟨[], c :: cs, rfl, by simp [Blanks], by simp [startsWord_cons, h_c], ?_⟩
          cases h_next : startsWord cs with
          | true =>
              rw [h_nil.mpr h_next, List.nil_append] at h_rest
              rw [joinedWords_cons_word h_c h_next]
              exact .char rfl h_word (h_rest ▸ h_spells)
          | false =>
              have h_gapSome : gap ≠ [] := fun h => by simp [h_nil.mp h] at h_next
              have h_gaps := Spells.space h_gapSome h_gap h_spells
              rw [← h_rest] at h_gaps
              rw [joinedWords_cons_gap h_c h_next (words_ne_nil_of_endsWord h_end)]
              exact .char rfl h_word h_gaps

theorem spells_joinedWords {cs : List Char} (h_start : startsWord cs = true)
    (h_end : startsWord cs.reverse = true) : Spells (joinedWords cs) cs := by
  obtain ⟨gap, rest, h_cs, -, h_nil, h_spells⟩ := exists_spells_joinedWords h_end
  rw [h_nil.mpr h_start, List.nil_append] at h_cs
  rwa [← h_cs] at h_spells

theorem Spells.joinedWords_eq {text written : List Char} (h : Spells text written) :
    joinedWords written = [' '].intercalate (words text) := by
  rw [joinedWords, h.words_eq]

/-! ## Texts that are spelled alike -/

/-- The texts are equal up to the case of their ASCII letters and to the number and
    kind of the blanks between their words. -/
inductive SpelledAlike : List Char → List Char → Prop where
  | nil : SpelledAlike [] []
  | char {c d : Char} {cs ds : List Char} (h : c.toUpper = d.toUpper) (h_word : isBlank c = false)
      (h_rest : SpelledAlike cs ds) : SpelledAlike (c :: cs) (d :: ds)
  | gap {gap other cs ds : List Char} (h_gapSome : gap ≠ []) (h_gap : Blanks gap)
      (h_otherSome : other ≠ []) (h_other : Blanks other) (h_rest : SpelledAlike cs ds) :
      SpelledAlike (gap ++ cs) (other ++ ds)

/-- Texts are spelled alike if both spell one text. -/
theorem spelledAlike_iff {cs ds : List Char} :
    SpelledAlike cs ds ↔ ∃ text, Spells text cs ∧ Spells text ds := by
  constructor
  · intro h
    induction h with
    | nil => exact ⟨[], .nil, .nil⟩
    | @char c d cs ds h h_word h_rest ih =>
        obtain ⟨text, h_cs, h_ds⟩ := ih
        have h_upper : isBlank c.toUpper = false := (isBlank_toUpper c).trans h_word
        exact ⟨c.toUpper :: text, .char rfl h_upper h_cs, .char h.symm h_upper h_ds⟩
    | gap h_gapSome h_gap h_otherSome h_other h_rest ih =>
        obtain ⟨text, h_cs, h_ds⟩ := ih
        exact ⟨' ' :: text, .space h_gapSome h_gap h_cs, .space h_otherSome h_other h_ds⟩
  · rintro ⟨text, h_cs, h_ds⟩
    induction h_cs generalizing ds with
    | nil =>
        cases h_ds
        exact .nil
    | @char c d text cs h h_word h_rest ih =>
        cases h_ds with
        | char h_other h_otherWord h_otherRest =>
            have h_writtenWord := (isBlank_of_toUpper h).trans h_word
            exact .char (h.trans h_other.symm) h_writtenWord (ih h_otherRest)
        | space h_some h_blanks h_otherRest => exact absurd h_word (by decide)
    | space h_some h_blanks h_rest ih =>
        cases h_ds with
        | char h_other h_otherWord h_otherRest => exact absurd h_otherWord (by decide)
        | space h_otherSome h_otherBlanks h_otherRest =>
            exact .gap h_some h_blanks h_otherSome h_otherBlanks (ih h_otherRest)

/-- Texts that start and end with words are spelled alike if and only if they have the
    same words, in whatever case. -/
theorem joinedWords_eq_iff {cs ds : List Char}
    (h_cs : startsWord cs = true ∧ startsWord cs.reverse = true)
    (h_ds : startsWord ds = true ∧ startsWord ds.reverse = true) :
    joinedWords cs = joinedWords ds ↔ SpelledAlike cs ds := by
  rw [spelledAlike_iff]
  constructor
  · intro h
    exact ⟨joinedWords cs, spells_joinedWords h_cs.1 h_cs.2, h ▸ spells_joinedWords h_ds.1 h_ds.2⟩
  · rintro ⟨text, h_first, h_second⟩
    rw [h_first.joinedWords_eq, h_second.joinedWords_eq]

end SqlCompose.Text
