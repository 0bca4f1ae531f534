/-
  SqlCompose.Text.Quoted

  Text between two marks, in which the mark itself is written twice: quoted
  names stand between double quotes, text literals between single ones.

    * `quoted q s`        -- `s` between two `q`, with every `q` of `s` doubled;
    * `readQuoted q cs`   -- reads such a text, after its opening mark.

  A mark that is followed by a second one stands for itself, any other one
  closes the text (`readQuoted_doubled_append`).
-/

namespace SqlCompose.Text

/-- `cs` with every `q` written twice. -/
def doubled (q : Char) : List Char → List Char
  | [] => []
  | c :: cs => if c = q then q :: q :: doubled q cs else c :: doubled q cs

/-- `s` between two marks `q`, with every `q` inside written twice. -/
def quoted (q : Char) (s : String) : String :=
  String.ofList (q :: doubled q s.toList ++ [q])

/-- Reads a quoted text after its opening mark: the text and what follows the
    closing mark, or `none` if nothing closes it. -/
def readQuoted (q : Char) : List Char → Option (List Char × List Char)
  | [] => none
  | [c] => if c = q then some ([], []) else none
  | c :: d :: rest =>
    if c = q then
      if d = q then (readQuoted q rest).map fun (text, after) => (q :: text, after)
      else some ([], d :: rest)
    else (readQuoted q (d :: rest)).map fun (text, after) => (c :: text, after)

/-- What follows the closing mark is shorter than what was read. -/
theorem length_lt_of_readQuoted {q : Char} {cs text after : List Char}
    (h : readQuoted q cs = some (text, after)) : after.length < cs.length := by
  fun_induction readQuoted q cs generalizing text after with
  | case1 => simp at h
  | case2 => simp only [Option.some.injEq, Prod.mk.injEq] at h; simp [← h.2]
  | case3 => simp at h
  | case4 rest ih =>
      obtain ⟨⟨t, a⟩, hr, he⟩ := Option.map_eq_some_iff.1 h
      simp only [Prod.mk.injEq] at he
      have := ih hr
      simp only [← he.2, List.length_cons]
      omega
  | case5 => simp only [Option.some.injEq, Prod.mk.injEq] at h; simp [← h.2]
  | case6 c d rest hc ih =>
      obtain ⟨⟨t, a⟩, hr, he⟩ := Option.map_eq_some_iff.1 h
      simp only [Prod.mk.injEq] at he
      have := ih hr
      simp only [← he.2, List.length_cons] at this ⊢
      omega

/-- Reading gives back a doubled text, and stops at the closing mark if what
    follows does not start with a second one. -/
theorem readQuoted_doubled_append (q : Char) (text after : List Char)
    (h : after.head? ≠ some q) :
    readQuoted q (doubled q text ++ q :: after) = some (text, after) := by
  induction text with
  | nil =>
      cases after with
      | nil => simp [doubled, readQuoted]
      | cons a as =>
          have : a ≠ q := by simpa using h
          simp [doubled, readQuoted, this]
  | cons c cs ih =>
      by_cases hc : c = q
      · subst hc
        simp only [doubled, if_pos, List.cons_append, readQuoted, ih, Option.map_some]
      -- Another character is read on its own: something follows it, at least the closing mark.
      · obtain ⟨d, rest, hd⟩ : ∃ d rest, doubled q cs ++ q :: after = d :: rest := by
          cases doubled q cs with
          | nil => exact ⟨q, after, rfl⟩
          | cons x xs => exact ⟨x, xs ++ q :: after, rfl⟩
        rw [hd] at ih
        simp only [doubled, if_neg hc, List.cons_append, hd, readQuoted, ih, Option.map_some]

end SqlCompose.Text
