/-
  SqlCompose.Proofs.Token.Lexer

  The tokens of a SQL text, for the part of SQL that conditions are written in:

    * words `[A-Za-z_][A-Za-z0-9_$]*` and names between double quotes, in which a
      double quote is written twice;
    * the symbols `. , ( ) = <> != < <= > >=`;
    * markers, `$` with digits behind it or `?`.

  Spaces divide tokens, and any other character is a fault. The lexer reads one
  character after the other and knows what it is in the middle of (`Mode`); it looks
  at a text only, and shares nothing with the reading and writing of identifiers.

  `Lexes cs ts` says that `cs` gives the tokens `ts` wherever a space, a dot, a comma
  or nothing follows, and `Closes cs ts` that it does whatever follows. Texts compose
  by `Lexes.append`, `Closes.append` and `lexes_intercalate`; the lemmas behind them
  give each kind of token.
-/
import Mathlib.Data.List.Forall2
import SqlCompose.Proofs.Marker
import SqlCompose.Text.Quoted

namespace SqlCompose

/-- A token that stands for itself. -/
inductive Lexeme where
  /-- A word: a keyword or a plain name. -/
  | word (text : String)
  /-- A quoted name, without its quotes. -/
  | name (text : String)
  /-- Punctuation or an operator. -/
  | symbol (text : String)
deriving DecidableEq

/-- A token of a SQL text. -/
inductive Token where
  | lexeme (l : Lexeme)
  /-- The marker of a value. -/
  | marker (text : String)
deriving DecidableEq

/-- The text of a marker. -/
def Token.marker? : Token → Option String
  | .marker text => some text
  | .lexeme _ => none

namespace Lexer

/-! ## The lexer -/

/-- Whether a word can start with `c`. -/
def startsWord (c : Char) : Bool :=
  ('A' ≤ c && c ≤ 'Z') || ('a' ≤ c && c ≤ 'z') || c = '_'

/-- Whether a word can go on with `c`. -/
def continuesWord (c : Char) : Bool := startsWord c || ('0' ≤ c && c ≤ '9') || c = '$'

/-- What the lexer is in the middle of. -/
inductive Mode where
  /-- Nothing. -/
  | between
  /-- A word. -/
  | word (read : List Char)
  /-- A quoted name. -/
  | quoted (read : List Char)
  /-- A quoted name after a double quote that closes it, unless a second one follows. -/
  | quote (read : List Char)
  /-- The digits of a marker. -/
  | marker (read : List Char)
  | less
  | greater
  | exclamation

/-- The token that is complete if nothing goes on with it. -/
def finish : Mode → Option (List Token)
  | .between => some []
  | .word read => some [.lexeme (.word (String.ofList read))]
  | .quoted _ => none
  | .quote read => some [.lexeme (.name (String.ofList read))]
  | .marker [] => none
  | .marker read => some [.marker (String.ofList ('$' :: read))]
  | .less => some [.lexeme (.symbol "<")]
  | .greater => some [.lexeme (.symbol ">")]
  | .exclamation => none

/-- What `c` starts. -/
def start (c : Char) : Option (List Token × Mode) :=
  match c with
  | ' ' => some ([], .between)
  | '"' => some ([], .quoted [])
  | '$' => some ([], .marker [])
  | '?' => some ([.marker "?"], .between)
  | '<' => some ([], .less)
  | '>' => some ([], .greater)
  | '!' => some ([], .exclamation)
  | '.' | ',' | '(' | ')' | '=' => some ([.lexeme (.symbol (String.ofList [c]))], .between)
  | _ => if startsWord c then some ([], .word [c]) else none

/-- How `c` goes on with what the lexer is in the middle of, if it does. -/
def extend : Mode → Char → Option (List Token × Mode)
  | .word read, c => if continuesWord c then some ([], .word (read ++ [c])) else none
  | .quoted read, c =>
    if c = '"' then some ([], .quote read) else some ([], .quoted (read ++ [c]))
  | .quote read, c => if c = '"' then some ([], .quoted (read ++ ['"'])) else none
  | .marker read, c =>
    if '0' ≤ c ∧ c ≤ '9' then some ([], .marker (read ++ [c])) else none
  | .less, '=' => some ([.lexeme (.symbol "<=")], .between)
  | .less, '>' => some ([.lexeme (.symbol "<>")], .between)
  | .greater, '=' => some ([.lexeme (.symbol ">=")], .between)
  | .exclamation, '=' => some ([.lexeme (.symbol "!=")], .between)
  | _, _ => none

/-- One character: the tokens that are complete with it, and what it is part of. -/
def step (m : Mode) (c : Char) : Option (List Token × Mode) :=
  match extend m c with
  | some next => some next
  | none =>
    match finish m, start c with
    | some done, some (more, next) => some (done ++ more, next)
    | _, _ => none

/-- The tokens of the rest of a text. -/
def run : Mode → List Char → Option (List Token)
  | m, [] => finish m
  | m, c :: cs =>
    match step m c with
    | some (done, next) => (run next cs).map (done ++ ·)
    | none => none

end Lexer

/-- The tokens of a text, if it has no fault. -/
def Token.lex (s : String) : Option (List Token) := Lexer.run .between s.toList

namespace Lexer

example : Token.lex "( a.\"b\"\"?\" >= $12 )" = some
    [.lexeme (.symbol "("), .lexeme (.word "a"), .lexeme (.symbol "."), .lexeme (.name "b\"?"),
      .lexeme (.symbol ">="), .marker "$12", .lexeme (.symbol ")")] := by decide

/-! ## Runs -/

/-- A character adds the tokens that are complete with it. -/
theorem run_cons {m next : Mode} {c : Char} {done : List Token}
    (h : step m c = some (done, next)) (cs : List Char) :
    run m (c :: cs) = (run next cs).map (done ++ ·) := by
  rw [run, h]

theorem step_of_extend {m : Mode} {c : Char} {next : List Token × Mode}
    (h : extend m c = some next) : step m c = some next := by
  rw [step, h]

/-- A character that starts something after a space. -/
theorem step_between (c : Char) : step .between c = start c := by
  rw [step]
  simp only [extend, finish]
  cases start c with
  | none => rfl
  | some pair => rfl

/-- If nothing goes on with a token, it is complete and the rest is read afresh. -/
theorem run_of_finish {m : Mode} {done : List Token} {rest : List Char}
    (h_done : finish m = some done) (h_rest : ∀ c ∈ rest.head?, extend m c = none) :
    run m rest = (run .between rest).map (done ++ ·) := by
  cases rest with
  | nil =>
      rw [run, run, h_done, show finish .between = some [] from rfl, Option.map_some,
        List.append_nil]
  | cons c rest =>
      have h_extend : extend m c = none := h_rest c rfl
      rw [run, run, step_between, step, h_extend, h_done]
      -- The complete token stands in front of what `c` starts.
      cases start c with
      | none => rfl
      | some pair =>
          obtain ⟨more, next⟩ := pair
          show (run next rest).map (done ++ more ++ ·)
            = ((run next rest).map (more ++ ·)).map (done ++ ·)
          rw [Option.map_map]
          congr 1
          funext tokens
          exact List.append_assoc done more tokens

/-- A space is passed over. -/
theorem run_space (cs : List Char) : run .between (' ' :: cs) = run .between cs := by
  rw [run_cons (step_between ' ')]
  simp

/-! ## Texts and their tokens -/

/-- What can follow a token without going on with it. -/
def Separated (rest : List Char) : Prop := ∀ c ∈ rest.head?, c = ' ' ∨ c = '.' ∨ c = ','

/-- The text `cs` has the tokens `ts`, whatever it is separated from. -/
def Lexes (cs : List Char) (ts : List Token) : Prop :=
  ∀ rest, Separated rest → run .between (cs ++ rest) = (run .between rest).map (ts ++ ·)

/-- The text `cs` has the tokens `ts`, whatever follows it. -/
def Closes (cs : List Char) (ts : List Token) : Prop :=
  ∀ rest, run .between (cs ++ rest) = (run .between rest).map (ts ++ ·)

theorem separated_nil : Separated [] := by
  intro c h
  simp at h

theorem separated_cons {c : Char} (h : c = ' ' ∨ c = '.' ∨ c = ',') (cs : List Char) :
    Separated (c :: cs) := by
  intro d h_d
  rw [List.head?_cons, Option.mem_some_iff] at h_d
  exact h_d ▸ h

theorem Separated.append {cs rest : List Char} (h : Separated cs) (h_rest : Separated rest) :
    Separated (cs ++ rest) := by
  cases cs with
  | nil => exact h_rest
  | cons c cs => exact separated_cons (h c rfl) _

/-- No token goes on with what separates tokens. -/
theorem extend_of_separated {m : Mode} {done : List Token} {rest : List Char}
    (h : Separated rest) (h_done : finish m = some done) :
    ∀ c ∈ rest.head?, extend m c = none := by
  intro c h_c
  rcases h c h_c with rfl | rfl | rfl <;> cases m <;>
    first | rfl | (simp [finish] at h_done)

theorem Closes.lexes {cs : List Char} {ts : List Token} (h : Closes cs ts) : Lexes cs ts := by
  intro rest _
  exact h rest

theorem lexes_nil : Lexes [] [] := by
  intro rest _
  simp

theorem Lexes.append {as bs : List Char} {ts us : List Token} (ha : Lexes as ts)
    (hb : Lexes bs us) (h : Separated bs) : Lexes (as ++ bs) (ts ++ us) := by
  intro rest h_rest
  rw [List.append_assoc, ha _ (h.append h_rest), hb rest h_rest, Option.map_map]
  congr 1
  funext more
  exact (List.append_assoc ts us more).symm

theorem Closes.append {as bs : List Char} {ts us : List Token} (ha : Closes as ts)
    (hb : Lexes bs us) : Lexes (as ++ bs) (ts ++ us) := by
  intro rest h_rest
  rw [List.append_assoc, ha, hb rest h_rest, Option.map_map]
  congr 1
  funext more
  exact (List.append_assoc ts us more).symm

/-- A space ends what is in front of it. -/
theorem Lexes.closes {cs : List Char} {ts : List Token} (h : Lexes cs ts) :
    Closes (cs ++ [' ']) ts := by
  intro rest
  rw [List.append_assoc, List.singleton_append, h _ (separated_cons (Or.inl rfl) rest), run_space]

theorem Lexes.append_space {as bs : List Char} {ts us : List Token} (ha : Lexes as ts)
    (hb : Lexes bs us) : Lexes (as ++ ' ' :: bs) (ts ++ us) := by
  have h_text : as ++ ' ' :: bs = (as ++ [' ']) ++ bs := by simp
  rw [h_text]
  exact ha.closes.append hb

theorem Closes.space {cs : List Char} {ts : List Token} (h : Closes cs ts) :
    Closes (' ' :: cs) ts := by
  intro rest
  rw [List.cons_append, run_space, h]

/-- A text that stands between others and is one token. -/
structure Divides (separator : String) (t : Token) : Prop where
  separated : ∃ c cs, separator.toList = c :: cs ∧ (c = ' ' ∨ c = '.' ∨ c = ',')
  closes : Closes separator.toList [t]

theorem lexes_intercalate {separator : String} {t : Token} (h : Divides separator t)
    {texts : List String} {tss : List (List Token)}
    (h_texts : List.Forall₂ (fun s ts => Lexes s.toList ts) texts tss) :
    Lexes (separator.intercalate texts).toList ([t].intercalate tss) := by
  obtain ⟨c, cs, h_separator, h_first⟩ := h.separated
  induction h_texts with
  | nil => exact lexes_nil
  | cons h_head h_rest ih =>
      cases h_rest with
      | nil =>
          rw [String.intercalate_singleton, List.intercalate_singleton]
          exact h_head
      | cons h_next h_more =>
          rw [String.intercalate_cons_cons, List.intercalate_cons_cons, String.toList_append,
            String.toList_append, List.append_assoc, List.append_assoc]
          refine h_head.append (h.closes.append ih) ?_
          rw [h_separator]
          exact separated_cons h_first _

/-- The tokens of a whole text. -/
theorem Lexes.lex {s : String} {ts : List Token} (h : Lexes s.toList ts) :
    Token.lex s = some ts := by
  have h_run := h [] separated_nil
  rw [List.append_nil] at h_run
  rw [Token.lex, h_run, run, show finish .between = some [] from rfl, Option.map_some,
    List.append_nil]

/-! ## Single tokens -/

/-- What separates tokens goes on with none, so a text keeps its tokens in front of it. -/
theorem run_append_of_separated {m : Mode} {cs rest : List Char} {ts : List Token}
    (h : run m cs = some ts) (h_rest : Separated rest) :
    run m (cs ++ rest) = (run .between rest).map (ts ++ ·) := by
  induction cs generalizing m ts with
  | nil => exact run_of_finish h (extend_of_separated h_rest h)
  | cons c cs ih =>
      rw [run] at h
      cases h_step : step m c with
      | none => simp [h_step] at h
      | some pair =>
          obtain ⟨done, next⟩ := pair
          simp only [h_step] at h
          obtain ⟨more, h_more, rfl⟩ := Option.map_eq_some_iff.mp h
          rw [List.cons_append, run_cons h_step, ih h_more, Option.map_map]
          congr 1
          funext tokens
          exact (List.append_assoc done more tokens).symm

theorem lexes_of_run {cs : List Char} {ts : List Token} (h : run .between cs = some ts) :
    Lexes cs ts := fun _ h_rest => run_append_of_separated h h_rest

theorem run_word (read cs : List Char) (h : cs.all continuesWord = true) :
    run (.word read) cs = some [.lexeme (.word (String.ofList (read ++ cs)))] := by
  induction cs generalizing read with
  | nil =>
      rw [List.append_nil]
      rfl
  | cons c cs ih =>
      rw [List.all_cons, Bool.and_eq_true] at h
      have h_extend : extend (.word read) c = some ([], .word (read ++ [c])) := by
        rw [extend, if_pos h.1]
      rw [run_cons (step_of_extend h_extend), ih _ h.2, List.append_assoc]
      rfl

theorem start_of_startsWord {c : Char} (h : startsWord c = true) :
    start c = some ([], .word [c]) := by
  unfold start
  split <;> first | (exact absurd h (by decide)) | rw [if_pos h]

theorem lexes_word {c : Char} {cs : List Char} (h_start : startsWord c = true)
    (h_rest : cs.all continuesWord = true) :
    Lexes (c :: cs) [.lexeme (.word (String.ofList (c :: cs)))] := by
  apply lexes_of_run
  have h_step : step .between c = some ([], .word [c]) := by
    rw [step_between, start_of_startsWord h_start]
  rw [run_cons h_step, run_word _ _ h_rest]
  rfl

theorem run_quoted (read name : List Char) :
    run (.quoted read) (Text.doubled '"' name ++ ['"'])
      = some [.lexeme (.name (String.ofList (read ++ name)))] := by
  induction name generalizing read with
  | nil =>
      have h_close : extend (.quoted read) '"' = some ([], .quote read) := rfl
      rw [Text.doubled, List.nil_append, run_cons (step_of_extend h_close), List.append_nil]
      rfl
  | cons c name ih =>
      have h_read : read ++ c :: name = read ++ [c] ++ name := by simp
      rw [Text.doubled, h_read]
      by_cases h_c : c = '"'
      · -- The first of the two quotes could be the closing one; the second one says that
        -- it is not.
        subst h_c
        have h_first : extend (.quoted read) '"' = some ([], .quote read) := rfl
        have h_second : extend (.quote read) '"' = some ([], .quoted (read ++ ['"'])) := rfl
        rw [if_pos rfl, List.cons_append, List.cons_append, run_cons (step_of_extend h_first),
          run_cons (step_of_extend h_second), ih]
        rfl
      · have h_extend : extend (.quoted read) c = some ([], .quoted (read ++ [c])) := by
          rw [extend, if_neg h_c]
        rw [if_neg h_c, List.cons_append, run_cons (step_of_extend h_extend), ih]
        rfl

/-- A quoted name is one token, whatever stands between its quotes. -/
theorem lexes_quoted (name : String) :
    Lexes (Text.quoted '"' name).toList [.lexeme (.name name)] := by
  apply lexes_of_run
  have h_open : step .between '"' = some ([], .quoted []) := step_between '"'
  have h_text : (Text.quoted '"' name).toList = '"' :: (Text.doubled '"' name.toList ++ ['"']) := by
    simp [Text.quoted]
  rw [h_text, run_cons h_open, run_quoted, List.nil_append, String.ofList_toList]
  rfl

theorem run_marker (read cs : List Char) (h : ∀ c ∈ cs, '0' ≤ c ∧ c ≤ '9')
    (h_some : read ++ cs ≠ []) :
    run (.marker read) cs = some [.marker (String.ofList ('$' :: (read ++ cs)))] := by
  induction cs generalizing read with
  | nil =>
      rw [List.append_nil] at h_some ⊢
      cases read with
      | nil => exact absurd rfl h_some
      | cons d read => rfl
  | cons c cs ih =>
      have h_extend : extend (.marker read) c = some ([], .marker (read ++ [c])) := by
        rw [extend, if_pos (h c List.mem_cons_self)]
      have h_read : read ++ c :: cs = read ++ [c] ++ cs := by simp
      rw [h_read] at h_some ⊢
      rw [run_cons (step_of_extend h_extend),
        ih _ (fun d h_d => h d (List.mem_cons_of_mem c h_d)) h_some]
      rfl

/-- The marker of a place is one token. -/
theorem lexes_marker (style : MarkerStyle) (position : Nat) :
    Lexes (style.marker position).toList [.marker (style.marker position)] := by
  apply lexes_of_run
  cases style with
  | anonymous =>
      rw [MarkerStyle.toList_anonymous]
      rfl
  | positional =>
      have h_text := MarkerStyle.toList_positional position
      have h_digits : ∀ c ∈ Nat.toDigits 10 position, '0' ≤ c ∧ c ≤ '9' := by
        intro c h_c
        simpa [Char.isDigit, Char.le_def] using MarkerStyle.isDigit_of_mem h_c
      have h_open : step .between '$' = some ([], .marker []) := step_between '$'
      rw [h_text, run_cons h_open, run_marker _ _ h_digits Nat.toDigits_ne_nil, List.nil_append,
        ← h_text, String.ofList_toList]
      rfl

/-- A character that is a token of its own. -/
theorem closes_of_start {c : Char} {ts : List Token} (h : start c = some (ts, .between)) :
    Closes [c] ts := by
  intro rest
  have h_step : step .between c = some (ts, .between) := (step_between c).trans h
  rw [List.singleton_append, run_cons h_step]

end Lexer

end SqlCompose
