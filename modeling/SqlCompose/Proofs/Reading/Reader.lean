/-
  SqlCompose.Proofs.Reading.Reader

  A reader of SQL conditions, which knows nothing of how they were written. A
  parenthesis as the first character of an operand opens a group; any other operand
  is a leaf, and runs up to the next ` AND `, ` OR ` or ` )` that is in no
  parentheses of the leaf. AND binds tighter than OR, so what is read is a
  disjunction of conjunctions of operands.

  The reader goes through the text from left to right. It keeps what it has read of
  the group that it is in (`Frame`) and of the groups around it, and knows whether it
  is in front of an operand, in a leaf or behind an operand (`Mode`). `step` says what
  the next character is part of, and how many more characters belong to that.

  `Reads cs e` says that in front of an operand the text `cs` is read as `e` and
  nothing more. A group of texts that are read is read (`reads_group`).
-/
import Mathlib.Data.List.Forall2
import SqlCompose.Fragment.Render

namespace SqlCompose

/-! ## Expressions -/

/-- A condition as it is read: a leaf, or a disjunction of conjunctions. -/
inductive Expression where
  | leaf (text : String)
  | group (alternatives : List (List Expression))

namespace Expression

mutual

/-- The texts of the leaves, from left to right. -/
def leaves : Expression → List String
  | .leaf text => [text]
  | .group alternatives => leavesAny alternatives

def leavesAll : List Expression → List String
  | [] => []
  | e :: es => leaves e ++ leavesAll es

def leavesAny : List (List Expression) → List String
  | [] => []
  | es :: rest => leavesAll es ++ leavesAny rest

end

mutual

/-- The value under an assignment to the leaves, of which `k` stand in front. -/
def value (v : Nat → Bool) (k : Nat) : Expression → Bool
  | .leaf _ => v k
  | .group alternatives => valueAny v k alternatives

def valueAll (v : Nat → Bool) (k : Nat) : List Expression → Bool
  | [] => true
  | e :: es => value v k e && valueAll v (k + (leaves e).length) es

def valueAny (v : Nat → Bool) (k : Nat) : List (List Expression) → Bool
  | [] => false
  | es :: rest => valueAll v k es || valueAny v (k + (leavesAll es).length) rest

end

end Expression

/-! ## The reader -/

namespace Reader

/-- What can stand behind an operand. -/
inductive Separator where
  | and
  | or
  | close

/-- The separator at the start of a text. -/
def separator? : List Char → Option Separator
  | ' ' :: 'A' :: 'N' :: 'D' :: ' ' :: _ => some .and
  | ' ' :: 'O' :: 'R' :: ' ' :: _ => some .or
  | ' ' :: ')' :: _ => some .close
  | _ => none

/-- What was read of a group: whole conjunctions, and the operands of the last one. -/
structure Frame where
  alternatives : List (List Expression) := []
  operands : List Expression := []

namespace Frame

def add (f : Frame) (e : Expression) : Frame := { f with operands := f.operands ++ [e] }

/-- The conjunctions, with the last one. -/
def close (f : Frame) : List (List Expression) := f.alternatives ++ [f.operands]

end Frame

/-- Where the reader is. -/
inductive Mode where
  /-- In front of an operand. -/
  | operand
  /-- In a leaf, in that many parentheses of it. -/
  | leaf (depth : Nat) (text : List Char)
  /-- Behind an operand. -/
  | done

/-- The mode, the group that is read, and the groups around it. -/
structure State where
  mode : Mode
  top : Frame
  outer : List Frame

/-- The state behind the operand, if the operand can end here. -/
def State.complete (s : State) : Option State :=
  match s.mode with
  | .operand => none
  | .leaf 0 text => some ⟨.done, s.top.add (.leaf (String.ofList text)), s.outer⟩
  | .leaf (_ + 1) _ => none
  | .done => some s

/-- The parentheses that are open behind a character of a leaf. -/
def depthAfter (depth : Nat) : Char → Nat
  | '(' => depth + 1
  | ')' => depth - 1
  | _ => depth

/-- What a separator behind an operand leads to, and how much longer than one
    character it is. -/
def separate (s : State) : Separator → Option (Nat × State)
  | .and => some (4, ⟨.operand, s.top, s.outer⟩)
  | .or => some (3, ⟨.operand, ⟨s.top.close, []⟩, s.outer⟩)
  | .close =>
    match s.outer with
    | [] => none
    | f :: outer => some (1, ⟨.done, f.add (.group s.top.close), outer⟩)

/-- What a character that separates nothing leads to. -/
def advance (s : State) : List Char → Option (Nat × State)
  | [] => none
  | c :: cs =>
    match s.mode with
    | .operand =>
      if c = '(' then
        if cs.head? = some ' ' then some (1, ⟨.operand, {}, s.top :: s.outer⟩) else none
      else if (separator? (c :: cs)).isSome then none
      else some (0, ⟨.leaf 0 [c], s.top, s.outer⟩)
    | .leaf depth text => some (0, ⟨.leaf (depthAfter depth c) (text ++ [c]), s.top, s.outer⟩)
    | .done => none

/-- The next character, with what comes behind it in sight. -/
def step (s : State) (cs : List Char) : Option (Nat × State) :=
  match s.complete, separator? cs with
  | some t, some sep => separate t sep
  | _, _ => advance s cs

/-- What is read when the text ends. -/
def finish (s : State) : Option Expression :=
  match s.complete with
  | some ⟨_, top, []⟩ => some (.group top.close)
  | _ => none

/-- The rest of a text, of which `skip` characters have been accounted for. -/
def run (skip : Nat) (s : State) : List Char → Option Expression
  | [] => if skip = 0 then finish s else none
  | c :: cs =>
    match skip with
    | n + 1 => run n s cs
    | 0 =>
      match step s (c :: cs) with
      | some (n, t) => run n t cs
      | none => none

end Reader

/-- The condition that a text is, if the reader gets through all of it. -/
def Expression.read (s : String) : Option Expression :=
  Reader.run 0 ⟨.operand, {}, []⟩ s.toList

namespace Reader

example : Expression.read "a IN ( $1, $2 ) AND b OR ( c )" = some (.group
    [[.leaf "a IN ( $1, $2 )", .leaf "b"], [.group [[.leaf "c"]]]]) := by rfl

/-! ## Runs -/

/-- Characters that are accounted for are passed over. -/
theorem run_skip (s : State) (skipped cs : List Char) :
    run skipped.length s (skipped ++ cs) = run 0 s cs := by
  induction skipped with
  | nil => rfl
  | cons c skipped ih =>
      rw [List.length_cons, List.cons_append, run]
      exact ih

/-- A step over a text of which the first character decides. -/
theorem run_of_step {s t : State} {c : Char} (more : List Char) {cs : List Char}
    (h : step s (c :: more ++ cs) = some (more.length, t)) :
    run 0 s (c :: more ++ cs) = run 0 t cs := by
  rw [List.cons_append] at h ⊢
  rw [run, h]
  exact run_skip t more cs

/-- What can follow an operand: nothing, or a separator. -/
def Follows (cs : List Char) : Prop := cs = [] ∨ ∃ sep, separator? cs = some sep

/-- What comes behind an operand does not depend on how the operand was read. -/
theorem run_of_complete {s t : State} (h : s.complete = some t) (h_done : t.complete = some t)
    {cs : List Char} (h_follows : Follows cs) : run 0 s cs = run 0 t cs := by
  cases cs with
  | nil => rw [run, run, finish, finish, h, h_done]
  | cons c cs =>
      rcases h_follows with h_nil | ⟨sep, h_sep⟩
      · cases h_nil
      -- A separator is looked for behind the operand, in both states.
      · have h_step : step s (c :: cs) = step t (c :: cs) := by
          rw [step, step, h, h_done, h_sep]
        rw [run, run, h_step]

/-- In front of an operand, the text is read as the expression. -/
def Reads (cs : List Char) (e : Expression) : Prop :=
  ∀ (top : Frame) (outer : List Frame) (rest : List Char), Follows rest →
    run 0 ⟨.operand, top, outer⟩ (cs ++ rest) = run 0 ⟨.done, top.add e, outer⟩ rest

/-- A text that is one operand is read as that. -/
theorem Reads.read {s : String} {e : Expression} (h : Reads s.toList e) :
    Expression.read s = some (.group [[e]]) := by
  have h_run := h {} [] [] (Or.inl rfl)
  rw [List.append_nil] at h_run
  rw [Expression.read, h_run]
  rfl

/-! ## Groups -/

/-- The frame in front of the next operand of a group. -/
def Frame.next (connective : Connective) (f : Frame) : Frame :=
  match connective with
  | .and => f
  | .or => ⟨f.close, []⟩

/-- The frame behind the operands of a group. -/
def Frame.collect (connective : Connective) (f : Frame) : List Expression → Frame
  | [] => f
  | [e] => f.add e
  | e :: next :: es => collect connective ((f.add e).next connective) (next :: es)

/-- What a group of operands is read as. -/
def alternatives (connective : Connective) (es : List Expression) : List (List Expression) :=
  match connective with
  | .and => [es]
  | .or => es.map ([·])

theorem close_collect_and (f : Frame) (e : Expression) (es : List Expression) :
    (f.collect .and (e :: es)).close = f.alternatives ++ [f.operands ++ e :: es] := by
  induction es generalizing f e with
  | nil => rfl
  | cons next es ih =>
      rw [Frame.collect, ih]
      simp [Frame.next, Frame.add]

theorem close_collect_or (f : Frame) (h : f.operands = []) (e : Expression)
    (es : List Expression) :
    (f.collect .or (e :: es)).close = f.alternatives ++ (e :: es).map ([·]) := by
  induction es generalizing f e with
  | nil => simp [Frame.collect, Frame.add, Frame.close, h]
  | cons next es ih =>
      rw [Frame.collect, ih _ rfl]
      simp [Frame.next, Frame.add, Frame.close, h]

theorem close_collect (connective : Connective) (e : Expression) (es : List Expression) :
    (Frame.collect connective {} (e :: es)).close = alternatives connective (e :: es) := by
  cases connective with
  | and => exact close_collect_and {} e es
  | or => exact close_collect_or {} rfl e es

/-- Behind an operand, the separator of a group leads in front of the next one. -/
theorem run_separator (connective : Connective) (f : Frame) (outer : List Frame)
    (rest : List Char) :
    run 0 ⟨.done, f, outer⟩ (connective.separator.toList ++ rest)
      = run 0 ⟨.operand, f.next connective, outer⟩ rest := by
  cases connective with
  | and => exact run_of_step ['A', 'N', 'D', ' '] rfl
  | or => exact run_of_step ['O', 'R', ' '] rfl

theorem follows_separator (connective : Connective) (rest : List Char) :
    Follows (connective.separator.toList ++ rest) := by
  cases connective with
  | and => exact Or.inr ⟨.and, rfl⟩
  | or => exact Or.inr ⟨.or, rfl⟩

/-- The operands of a group are read one after the other. -/
theorem run_intercalate (connective : Connective) {texts : List String} {es : List Expression}
    (h : List.Forall₂ (fun s e => Reads s.toList e) texts es) (h_some : es ≠ [])
    (f : Frame) (outer : List Frame) {rest : List Char} (h_rest : Follows rest) :
    run 0 ⟨.operand, f, outer⟩ ((connective.separator.intercalate texts).toList ++ rest)
      = run 0 ⟨.done, f.collect connective es, outer⟩ rest := by
  induction h generalizing f with
  | nil => exact absurd rfl h_some
  | cons h_first h_more ih =>
      cases h_more with
      | nil =>
          rw [String.intercalate_singleton]
          exact h_first f outer rest h_rest
      | cons h_second h_others =>
          rw [String.intercalate_cons_cons, String.toList_append, String.toList_append,
            List.append_assoc, List.append_assoc,
            h_first f outer _ (follows_separator connective _), run_separator]
          exact ih (by simp) _

/-- A group of operands that are read is read as the group. -/
theorem reads_group (connective : Connective) {texts : List String} {es : List Expression}
    (h : List.Forall₂ (fun s e => Reads s.toList e) texts es) (h_some : es ≠ []) :
    Reads ("( " ++ connective.separator.intercalate texts ++ " )").toList
      (.group (alternatives connective es)) := by
  intro top outer rest h_rest
  have h_text : ("( " ++ connective.separator.intercalate texts ++ " )").toList ++ rest
      = '(' :: [' '] ++ ((connective.separator.intercalate texts).toList ++ (' ' :: [')'] ++ rest)) := by
    simp
  have h_open : ∀ cs : List Char, run 0 ⟨.operand, top, outer⟩ ('(' :: [' '] ++ cs)
      = run 0 ⟨.operand, {}, top :: outer⟩ cs := by
    intro cs
    exact run_of_step [' '] rfl
  have h_close : ∀ f : Frame, run 0 ⟨.done, f, top :: outer⟩ (' ' :: [')'] ++ rest)
      = run 0 ⟨.done, top.add (.group f.close), outer⟩ rest := by
    intro f
    exact run_of_step [')'] rfl
  rw [h_text, h_open, run_intercalate connective h h_some {} (top :: outer) (Or.inr ⟨.close, rfl⟩),
    h_close]
  cases es with
  | nil => exact absurd rfl h_some
  | cons e es => rw [close_collect]

end Reader

end SqlCompose
