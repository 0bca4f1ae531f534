/-
  SqlCompose.Proofs.Reading.Leaf

  Texts that are read as one leaf. A text is plain if it has no parenthesis and
  neither AND nor OR between its spaces (`isPlain`). Plain text is a leaf, and so is a
  comparison with a plain head, although a list brings parentheses of its own.

  `Quiet depth cs after` is the invariant of the reader in a leaf: no separator starts
  in `cs` outside of parentheses, whatever the reader may find behind `cs`. Quiet
  texts compose (`Quiet.append`) if the second one starts with a space, because then
  no word of the first one goes on in it.
-/
import SqlCompose.Proofs.Outline.Render
import SqlCompose.Proofs.Reading.Reader

namespace SqlCompose

/-- Whether a text has no parenthesis and neither AND nor OR between its spaces. -/
def Text.isPlain (s : String) : Bool :=
  s.toList.all (fun c => c ≠ '(' && c ≠ ')') &&
    (s.toList.splitOn ' ').all fun w => w ≠ "AND".toList && w ≠ "OR".toList

namespace Reader

/-! ## Quiet texts -/

/-- The end of a text, or a space. -/
def Ends (rest : List Char) : Prop := ∀ c ∈ rest.head?, c = ' '

/-- No separator starts in `cs` outside of parentheses; `depth` of them are open in
    front of `cs` and `after` behind it. -/
def Quiet (depth : Nat) (cs : List Char) (after : Nat) : Prop :=
  match cs with
  | [] => depth = after
  | c :: cs =>
    (depth = 0 → ∀ rest, Ends rest → separator? (c :: cs ++ rest) = none) ∧
      Quiet (depthAfter depth c) cs after

/-- A separator starts with a space. -/
theorem separator?_of_ne_space {c : Char} (h : c ≠ ' ') (cs : List Char) :
    separator? (c :: cs) = none := by
  unfold separator?
  split
  · rename_i h_text
    exact absurd (List.cons.inj h_text).1 h
  · rename_i h_text
    exact absurd (List.cons.inj h_text).1 h
  · rename_i h_text
    exact absurd (List.cons.inj h_text).1 h
  · rfl

theorem ends_of_follows {rest : List Char} (h : Follows rest) : Ends rest := by
  intro c h_c
  rcases h with rfl | ⟨sep, h_sep⟩
  · cases h_c
  · cases rest with
    | nil => cases h_c
    | cons d rest =>
        rw [List.head?_cons, Option.mem_some_iff] at h_c
        subst h_c
        by_contra h_space
        rw [separator?_of_ne_space h_space] at h_sep
        cases h_sep

theorem ends_append {cs rest : List Char} (h : Ends cs) (h_rest : Ends rest) :
    Ends (cs ++ rest) := by
  cases cs with
  | nil => exact h_rest
  | cons c cs => exact h

/-- A quiet text goes into the leaf as a whole. -/
theorem run_leaf {depth after : Nat} {cs : List Char} (h : Quiet depth cs after)
    (text : List Char) (top : Frame) (outer : List Frame) {rest : List Char}
    (h_rest : Ends rest) :
    run 0 ⟨.leaf depth text, top, outer⟩ (cs ++ rest)
      = run 0 ⟨.leaf after (text ++ cs), top, outer⟩ rest := by
  induction cs generalizing depth text with
  | nil =>
      rw [Quiet] at h
      rw [h, List.append_nil, List.nil_append]
  | cons c cs ih =>
      rw [Quiet] at h
      have h_step : step ⟨.leaf depth text, top, outer⟩ (c :: [] ++ (cs ++ rest))
          = some (0, ⟨.leaf (depthAfter depth c) (text ++ [c]), top, outer⟩) := by
        -- In parentheses of the leaf, a separator is none.
        cases depth with
        | zero =>
            have h_none : separator? (c :: [] ++ (cs ++ rest)) = none := h.1 rfl rest h_rest
            rw [step, h_none]
            rfl
        | succ depth => rfl
      have h_text : text ++ c :: cs = text ++ [c] ++ cs := by simp
      rw [h_text, ← ih h.2]
      exact run_of_step [] h_step

/-- A quiet text in front of an operand is a leaf, unless it opens a group. -/
theorem reads_leaf {s : String} {c : Char} {cs : List Char} (h_text : s.toList = c :: cs)
    (h_open : c ≠ '(') (h : Quiet 0 (c :: cs) 0) : Reads s.toList (.leaf s) := by
  intro top outer rest h_rest
  have h_ends := ends_of_follows h_rest
  have h_depth : depthAfter 0 c = 0 := by
    unfold depthAfter
    split
    · exact absurd rfl h_open
    · rfl
    · rfl
  rw [Quiet, h_depth] at h
  -- The first character starts the leaf.
  have h_none : separator? (c :: [] ++ (cs ++ rest)) = none := h.1 rfl rest h_ends
  have h_step : step ⟨.operand, top, outer⟩ (c :: [] ++ (cs ++ rest))
      = some (0, ⟨.leaf 0 [c], top, outer⟩) := by
    show (if c = '(' then _ else if (separator? (c :: [] ++ (cs ++ rest))).isSome then _ else _) = _
    rw [if_neg h_open, h_none]
    rfl
  have h_start : run 0 ⟨.operand, top, outer⟩ (c :: [] ++ (cs ++ rest))
      = run 0 ⟨.leaf 0 [c], top, outer⟩ (cs ++ rest) := run_of_step [] h_step
  -- Behind the last one, the leaf is complete.
  have h_complete : (State.mk (.leaf 0 ([c] ++ cs)) top outer).complete
      = some ⟨.done, top.add (.leaf s), outer⟩ := by
    show some (State.mk .done (top.add (.leaf (String.ofList (c :: cs)))) outer) = _
    rw [← h_text, String.ofList_toList]
  rw [h_text]
  show run 0 ⟨.operand, top, outer⟩ (c :: [] ++ (cs ++ rest)) = _
  rw [h_start, run_leaf h.2 [c] top outer h_ends]
  exact run_of_complete h_complete rfl h_rest

theorem Quiet.append {depth middle after : Nat} {as bs : List Char} (ha : Quiet depth as middle)
    (hb : Quiet middle bs after) (h_ends : Ends bs) : Quiet depth (as ++ bs) after := by
  induction as generalizing depth with
  | nil =>
      rw [Quiet] at ha
      rw [ha]
      exact hb
  | cons c as ih =>
      rw [Quiet] at ha
      refine ⟨?_, ih ha.2⟩
      intro h_depth rest h_rest
      show separator? (c :: (as ++ bs) ++ rest) = none
      rw [List.cons_append, List.append_assoc]
      exact ha.1 h_depth (bs ++ rest) (ends_append h_ends h_rest)

/-! ## Parentheses -/

/-- Text without parentheses. -/
def ParenFree (cs : List Char) : Prop := ∀ c ∈ cs, c ≠ '(' ∧ c ≠ ')'

theorem depthAfter_of_ne {c : Char} (h : c ≠ '(' ∧ c ≠ ')') (depth : Nat) :
    depthAfter depth c = depth := by
  unfold depthAfter
  split
  · exact absurd rfl h.1
  · exact absurd rfl h.2
  · rfl

/-- In parentheses, text without parentheses is quiet, whatever stands behind it. -/
theorem quiet_inside {cs bs : List Char} (h : ParenFree cs) {depth after : Nat}
    (hb : Quiet (depth + 1) bs after) : Quiet (depth + 1) (cs ++ bs) after := by
  induction cs with
  | nil => exact hb
  | cons c cs ih =>
      rw [List.cons_append, Quiet, depthAfter_of_ne (h c List.mem_cons_self)]
      exact ⟨fun h_depth => by omega, ih fun d h_d => h d (List.mem_cons_of_mem c h_d)⟩

/-- A list in parentheses, after a space, is quiet. -/
theorem quiet_parenthesized {cs : List Char} (h : ParenFree cs) :
    Quiet 0 (' ' :: '(' :: (' ' :: cs ++ [' ', ')'])) 0 := by
  have h_cs : ParenFree (' ' :: cs ++ [' ']) := by
    intro c h_c
    rw [List.mem_append, List.mem_cons, List.mem_singleton] at h_c
    rcases h_c with (rfl | h_c) | rfl
    · decide
    · exact h c h_c
    · decide
  have h_close : Quiet 1 [')'] 0 := ⟨fun h_depth => by omega, rfl⟩
  have h_inside := quiet_inside h_cs h_close
  rw [List.append_assoc] at h_inside
  refine ⟨fun _ rest _ => rfl, fun _ rest _ => ?_, h_inside⟩
  exact separator?_of_ne_space (by decide) _

/-- A word without spaces and parentheses is quiet. -/
theorem quiet_word {cs : List Char} (h_free : ParenFree cs) (h_space : ' ' ∉ cs) :
    Quiet 0 cs 0 := by
  induction cs with
  | nil => rfl
  | cons c cs ih =>
      rw [List.mem_cons, not_or] at h_space
      rw [Quiet, depthAfter_of_ne (h_free c List.mem_cons_self)]
      refine ⟨fun _ rest _ => separator?_of_ne_space (Ne.symm h_space.1) _, ?_⟩
      exact ih (fun d h_d => h_free d (List.mem_cons_of_mem c h_d)) h_space.2

/-! ## Plain text -/

/-- A text that starts with a word and then a space or an end has that word. -/
theorem mem_splitOn_of_append_eq (word : List Char) {cs rest tail : List Char}
    (h_word : ' ' ∉ word) (h_rest : Ends rest) (h : cs ++ rest = word ++ ' ' :: tail) :
    word ∈ cs.splitOn ' ' := by
  rcases List.append_eq_append_iff.mp h with ⟨more, h_more, h_tail⟩ | ⟨more, h_more, h_tail⟩
  · -- The word goes on behind the text, which is only possible with nothing.
    cases more with
    | nil =>
        rw [List.append_nil] at h_more
        rw [← h_more, List.splitOn_eq_singleton h_word]
        exact List.mem_singleton_self word
    | cons c more =>
        have h_c : c = ' ' := h_rest c (by rw [h_tail]; rfl)
        have h_mem : ' ' ∈ word := by
          rw [h_more, h_c]
          simp
        exact absurd h_mem h_word
  · cases more with
    | nil =>
        rw [List.append_nil] at h_more
        rw [h_more, List.splitOn_eq_singleton h_word]
        exact List.mem_singleton_self word
    | cons c more =>
        have h_c : ' ' = c := (List.cons.inj h_tail).1
        rw [h_more, ← h_c, List.splitOn_append_cons_self_of_not_mem h_word]
        exact List.mem_cons_self

/-- Behind a space there is a separator only if there is a parenthesis or its word. -/
theorem separator?_of_words {cs rest : List Char} (h_free : ParenFree cs)
    (h_words : ∀ w ∈ cs.splitOn ' ', w ≠ "AND".toList ∧ w ≠ "OR".toList) (h_rest : Ends rest) :
    separator? (' ' :: cs ++ rest) = none := by
  cases h : separator? (' ' :: cs ++ rest) with
  | none => rfl
  | some sep =>
      exfalso
      rw [List.cons_append] at h
      unfold separator? at h
      split at h
      · rename_i tail h_text
        have h_and := mem_splitOn_of_append_eq "AND".toList (by decide) h_rest
          (List.cons.inj h_text).2
        exact (h_words _ h_and).1 rfl
      · rename_i tail h_text
        have h_or := mem_splitOn_of_append_eq "OR".toList (by decide) h_rest
          (List.cons.inj h_text).2
        exact (h_words _ h_or).2 rfl
      · rename_i tail h_text
        have h_close : cs ++ rest = ')' :: tail := (List.cons.inj h_text).2
        cases cs with
        | nil =>
            have h_space := h_rest ')' (by rw [List.nil_append] at h_close; rw [h_close]; rfl)
            exact absurd h_space (by decide)
        | cons c cs =>
            have h_c := (h_free c List.mem_cons_self).2
            exact h_c (List.cons.inj h_close).1
      · cases h

/-- What is left of a plain text is quiet, wherever the reader is in it. -/
theorem quiet_of_words (before : List Char) {cs : List Char} (h_free : ParenFree cs)
    (h_words : ∀ w ∈ (before ++ cs).splitOn ' ', w ≠ "AND".toList ∧ w ≠ "OR".toList) :
    Quiet 0 cs 0 := by
  induction cs generalizing before with
  | nil => rfl
  | cons c cs ih =>
      have h_cs : ParenFree cs := fun d h_d => h_free d (List.mem_cons_of_mem c h_d)
      rw [Quiet, depthAfter_of_ne (h_free c List.mem_cons_self)]
      refine ⟨?_, ih (before ++ [c]) h_cs (by simpa using h_words)⟩
      intro _ rest h_rest
      by_cases h_c : c = ' '
      · subst h_c
        rw [List.splitOn_append_cons_self] at h_words
        exact separator?_of_words h_cs (fun w h_w => h_words w (List.mem_append_right _ h_w)) h_rest
      · exact separator?_of_ne_space h_c _

theorem parenFree_of_isPlain {s : String} (h : Text.isPlain s = true) : ParenFree s.toList := by
  rw [Text.isPlain, Bool.and_eq_true, List.all_eq_true] at h
  intro c h_c
  simpa using h.1 c h_c

theorem quiet_of_isPlain {s : String} (h : Text.isPlain s = true) : Quiet 0 s.toList 0 := by
  refine quiet_of_words [] (parenFree_of_isPlain h) ?_
  rw [Text.isPlain, Bool.and_eq_true, List.all_eq_true, List.all_eq_true] at h
  intro w h_w
  simpa using h.2 w h_w

/-! ## Leaves -/

/-- Plain text is a leaf. -/
theorem reads_text {s : String} (h : Text.isPlain s = true) (h_some : s ≠ "") :
    Reads s.toList (.leaf s) := by
  have h_quiet := quiet_of_isPlain h
  cases h_text : s.toList with
  | nil => exact absurd (String.toList_eq_nil_iff.mp h_text) h_some
  | cons c cs =>
      have h_c := parenFree_of_isPlain h c (by rw [h_text]; exact List.mem_cons_self)
      rw [h_text] at h_quiet
      rw [← h_text]
      exact reads_leaf h_text h_c.1 h_quiet

/-- A plain head with a quiet text behind a space is a leaf. -/
theorem reads_head {head s : String} {cs : List Char} (h : Text.isPlain head = true)
    (h_text : s.toList = head.toList ++ ' ' :: cs) (h_quiet : Quiet 0 (' ' :: cs) 0) :
    Reads s.toList (.leaf s) := by
  have h_ends : Ends (' ' :: cs) := by
    intro c h_c
    rw [List.head?_cons, Option.mem_some_iff] at h_c
    exact h_c.symm
  have h_all := (quiet_of_isPlain h).append h_quiet h_ends
  rw [← h_text] at h_all
  cases h_head : head.toList with
  | nil =>
      -- Without a head, the leaf starts with the space.
      rw [h_head, List.nil_append] at h_text
      rw [h_text] at h_all
      exact reads_leaf h_text (by decide) h_all
  | cons c more =>
      have h_c := parenFree_of_isPlain h c (by rw [h_head]; exact List.mem_cons_self)
      rw [h_head, List.cons_append] at h_text
      rw [h_text] at h_all
      exact reads_leaf h_text h_c.1 h_all

theorem parenFree_marker (style : MarkerStyle) (position : Nat) :
    ParenFree (style.marker position).toList := by
  intro c h_c
  constructor
  · exact MarkerStyle.ne_of_mem_marker h_c (by decide) (by decide)
  · exact MarkerStyle.ne_of_mem_marker h_c (by decide) (by decide)

/-- Between the parentheses of a list there are markers and commas only. -/
theorem parenFree_markers (style : MarkerStyle) (bound : Nat) (vs : List Value) :
    ParenFree (Outline.sql style bound (Outline.joined ", " (vs.map ([.value ·])))).toList := by
  rw [Outline.sql_joined]
  induction vs generalizing bound with
  | nil =>
      intro c h_c
      simp [Outline.sqls] at h_c
  | cons v vs ih =>
      have h_first := Outline.sql_value style bound v
      cases vs with
      | nil =>
          rw [List.map_singleton, Outline.sqls, Outline.sqls, h_first,
            String.intercalate_singleton]
          exact parenFree_marker style (bound + 1)
      | cons w vs =>
          have h_rest := ih (bound + 1)
          rw [List.map_cons, Outline.sqls] at h_rest
          rw [List.map_cons, List.map_cons, Outline.sqls, Outline.sqls, h_first,
            String.intercalate_cons_cons, String.toList_append, String.toList_append]
          intro c h_c
          rw [List.mem_append, List.mem_append] at h_c
          rcases h_c with (h_c | h_c) | h_c
          · exact parenFree_marker style (bound + 1) c h_c
          · have h_comma : ParenFree (", " : String).toList := by simp [ParenFree]
            exact h_comma c h_c
          · exact h_rest c h_c

/-- A marker, after a space, is quiet. -/
theorem quiet_marker (style : MarkerStyle) (position : Nat) :
    Quiet 0 (' ' :: (style.marker position).toList) 0 := by
  have h_space : ' ' ∉ (style.marker position).toList := by
    intro h
    exact MarkerStyle.ne_of_mem_marker h (by decide) (by decide) rfl
  refine ⟨?_, quiet_word (parenFree_marker style position) h_space⟩
  intro _ rest _
  cases style with
  | positional =>
      rw [MarkerStyle.toList_positional]
      rfl
  | anonymous =>
      rw [MarkerStyle.toList_anonymous]
      rfl

/-- A comparison with a plain head is a leaf. -/
theorem reads_comparison {head : String} (h : Text.isPlain head = true) (operand : Operand)
    (style : MarkerStyle) (bound : Nat) :
    Reads ((operand.outline head).sql style bound).toList
      (.leaf ((operand.outline head).sql style bound)) := by
  cases operand with
  | value v =>
      have h_text : (((Operand.value v).outline head).sql style bound).toList
          = head.toList ++ ' ' :: (style.marker (bound + 1)).toList := by
        rw [Operand.outline, Outline.sql, Outline.sql_value]
        simp
      exact reads_head h h_text (quiet_marker style (bound + 1))
  | list vs =>
      cases vs with
      | nil =>
          have h_text : (((Operand.list []).outline head).sql style bound).toList
              = head.toList ++ ' ' :: '(' :: (' ' :: "NULL".toList ++ [' ', ')']) := by
            rw [Operand.outline, Outline.sql_text]
            simp
          have h_null : ParenFree "NULL".toList := by simp [ParenFree]
          exact reads_head h h_text (quiet_parenthesized h_null)
      | cons v vs =>
          have h_text : (((Operand.list (v :: vs)).outline head).sql style bound).toList
              = head.toList ++ ' ' :: '(' :: (' ' ::
                  (Outline.sql style bound (Outline.joined ", " ((v :: vs).map ([.value ·])))).toList
                ++ [' ', ')']) := by
            rw [Operand.outline_cons, Outline.sql, Outline.sql_append, Outline.sql_text]
            simp
          exact reads_head h h_text (quiet_parenthesized (parenFree_markers style bound (v :: vs)))

end Reader

end SqlCompose
