/-
  SqlCompose.Proofs.Template.Calls

  The calls that build a template, as data. The segments that calls leave behind do not
  depend on the fragments that are filled in (`segments_foldl_call`), and the fragments
  are the renderings of those of the calls, in order (`fragments_foldl_call`).
-/
import SqlCompose.Template

namespace SqlCompose.Template

/-- A call that adds to a template. -/
inductive Call (φ : Type) where
  | text (s : String)
  | fill (x : φ)

variable {φ ψ χ : Type}

def Call.map (g : φ → ψ) : Call φ → Call ψ
  | .text s => .text s
  | .fill x => .fill (g x)

def Call.filled? : Call φ → Option φ
  | .text _ => none
  | .fill x => some x

/-- The template after a call. -/
def call [Filler φ] (t : Template) : Call φ → Template
  | .text s => t.text s
  | .fill f => t.fill f

/-- The template that calls make, from the empty one. -/
def ofCalls [Filler φ] (calls : List (Call φ)) : Template := calls.foldl call {}

example (s : String) : ofCalls ([.text s] : List (Call Fragment)) = ofText s := rfl

/-- Calls do not look at the fragments that they fill in. -/
theorem segments_foldl_call [Filler ψ] [Filler χ] (g : φ → ψ) (h : φ → χ)
    (calls : List (Call φ)) {t u : Template}
    (h_segments : t.segments = u.segments) (h_size : t.fragments.size = u.fragments.size) :
    ((calls.map (Call.map g)).foldl call t).closedSegments
      = ((calls.map (Call.map h)).foldl call u).closedSegments := by
  induction calls generalizing t u with
  | nil =>
      have h_balanced : t.isBalanced = u.isBalanced := by
        rw [isBalanced, isBalanced, h_segments, h_size]
      show t.closedSegments = u.closedSegments
      rw [closedSegments, closedSegments, h_balanced, h_segments]
  | cons c calls ih =>
      have h_balanced : t.isBalanced = u.isBalanced := by
        rw [isBalanced, isBalanced, h_segments, h_size]
      rw [List.map_cons, List.foldl_cons, List.map_cons, List.foldl_cons]
      cases c with
      | text s =>
          have h_text : (t.text s).segments = (u.text s).segments ∧
              (t.text s).fragments.size = (u.text s).fragments.size := by
            rw [Template.text, Template.text, h_balanced]
            cases u.isBalanced with
            | true => exact ⟨by rw [if_pos rfl, if_pos rfl, h_segments], h_size⟩
            | false =>
                rw [if_neg Bool.false_ne_true, if_neg Bool.false_ne_true]
                exact ⟨by rw [h_segments], h_size⟩
          exact ih h_text.1 h_text.2
      | fill x =>
          have h_fill : (t.fill (g x)).segments = (u.fill (h x)).segments ∧
              (t.fill (g x)).fragments.size = (u.fill (h x)).fragments.size := by
            rw [fill, fill, h_balanced, h_segments]
            exact ⟨rfl, by rw [Array.size_push, Array.size_push, h_size]⟩
          exact ih h_fill.1 h_fill.2

theorem filterMap_filled_map (g : φ → ψ) (calls : List (Call φ)) :
    (calls.map (Call.map g)).filterMap Call.filled? = (calls.filterMap Call.filled?).map g := by
  induction calls with
  | nil => rfl
  | cons c calls ih =>
      cases c with
      | text s => exact ih
      | fill x => exact congrArg (g x :: ·) ih

theorem fragments_foldl_call [Filler ψ] (g : φ → ψ) (calls : List (Call φ)) (t : Template) :
    ((calls.map (Call.map g)).foldl call t).fragments.toList
      = t.fragments.toList ++ ((calls.filterMap Call.filled?).map g).map Filler.render := by
  induction calls generalizing t with
  | nil => exact (List.append_nil _).symm
  | cons c calls ih =>
      rw [List.map_cons, List.foldl_cons, ih]
      cases c with
      | text s =>
          have h_text : (t.text s).fragments = t.fragments := by
            rw [Template.text]
            cases t.isBalanced with
            | true => rfl
            | false => rfl
          show (t.text s).fragments.toList ++ _ = _
          rw [h_text]
          rfl
      | fill x =>
          show (t.fill (g x)).fragments.toList ++ _ = _
          rw [fill, Array.toList_push, List.append_assoc]
          rfl

end SqlCompose.Template
