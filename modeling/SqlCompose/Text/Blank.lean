/-
  SqlCompose.Text.Blank

  Blanks, the characters with the Unicode property White_Space, and the three
  cuts that are made at them:

    * `trimBlanks cs`   -- `cs` without its leading and trailing blanks;
    * `cutAtBlank cs`   -- `cs` up to its first blank, and what follows that blank;
    * `words cs`        -- the maximal blank-free runs of `cs`, in order.

  `cutAtBlank_eq_some` says what the cut loses: one blank, the first.
  `flatten_words` says that words lose the blanks, and nothing else.
-/
import SqlCompose.Text.CodePoints

namespace SqlCompose.Text

/-- The code points with the property White_Space. -/
def blanks : CodePoints :=
  [(0x09, 0x0D), (0x20, 0x20), (0x85, 0x85), (0xA0, 0xA0), (0x1680, 0x1680),
   (0x2000, 0x200A), (0x2028, 0x2029), (0x202F, 0x202F), (0x205F, 0x205F), (0x3000, 0x3000)]

/-- A blank is a character with the property White_Space. -/
def isBlank (c : Char) : Bool := blanks.contains c

/-! ## The three cuts -/

/-- `cs` without its leading and trailing blanks. -/
def trimBlanks (cs : List Char) : List Char :=
  ((cs.dropWhile isBlank).reverse.dropWhile isBlank).reverse

/-- The characters before the first blank of `cs` and those after it; `none` if
    `cs` has no blank. -/
def cutAtBlank (cs : List Char) : Option (List Char × List Char) :=
  match cs.dropWhile (!isBlank ·) with
  | [] => none
  | _ :: rest => some (cs.takeWhile (!isBlank ·), rest)

/-- Whether `cs` goes on with a character that is no blank. -/
def startsWord (cs : List Char) : Bool := cs.head?.any (!isBlank ·)

/-- The maximal runs of characters that are no blanks, in order. -/
def words : List Char → List (List Char)
  | [] => []
  | c :: cs =>
    if isBlank c then words cs
    -- The word of `c` goes on with `cs`, or `c` is its last character.
    else if startsWord cs then (words cs).modifyHead (c :: ·)
    else [c] :: words cs

/-! ## What the cuts keep -/

/-- The cut loses one character, the first blank, and leaves none before it. -/
theorem cutAtBlank_eq_some {cs before after : List Char}
    (h : cutAtBlank cs = some (before, after)) :
    (∃ b, isBlank b = true ∧ cs = before ++ b :: after) ∧ ∀ c ∈ before, isBlank c = false := by
  unfold cutAtBlank at h
  split at h
  · exact absurd h (by simp)
  · rename_i b rest hd
    obtain ⟨rfl, rfl⟩ := by simpa only [Option.some.injEq, Prod.mk.injEq] using h
    have hb : isBlank b = true := by
      have := List.head?_dropWhile_not (!isBlank ·) cs
      rw [hd] at this
      simpa using this
    refine ⟨⟨b, hb, ?_⟩, fun c hc => ?_⟩
    · rw [← hd, List.takeWhile_append_dropWhile]
    · have := List.all_eq_true.1 (List.all_takeWhile (p := (!isBlank ·)) (l := cs)) c hc
      simpa using this

/-- A text that goes on with a word has a first word. -/
theorem words_of_startsWord {cs : List Char} (h : startsWord cs = true) :
    ∃ w ws, words cs = w :: ws := by
  cases cs with
  | nil => simp [startsWord] at h
  | cons c cs =>
      have hc : isBlank c = false := by simpa [startsWord] using h
      simp only [words, hc, Bool.false_eq_true, if_false]
      split
      · rename_i h_next
        obtain ⟨w, ws, hw⟩ := words_of_startsWord h_next
        exact ⟨c :: w, ws, by simp [hw]⟩
      · exact ⟨[c], words cs, rfl⟩

/-- Words keep every character that is no blank, in order. -/
theorem flatten_words (cs : List Char) :
    (words cs).flatten = cs.filter (!isBlank ·) := by
  induction cs with
  | nil => rfl
  | cons c cs ih =>
      simp only [words]
      split
      · rename_i hc
        simp only [ih, List.filter_cons, hc, Bool.not_true, Bool.false_eq_true, if_false]
      · rename_i hc
        have hc : isBlank c = false := by simpa using hc
        have h_filter : (c :: cs).filter (!isBlank ·) = c :: cs.filter (!isBlank ·) := by
          simp [hc]
        rw [h_filter, ← ih]
        split
        · rename_i h_next
          obtain ⟨w, ws, hw⟩ := words_of_startsWord h_next
          simp [hw]
        · rfl

end SqlCompose.Text
