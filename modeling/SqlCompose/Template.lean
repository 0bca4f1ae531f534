/-
  SqlCompose.Template

  Statements from text and fragments in turn. `interleave` renders alternating
  segments of text and fragments on one collector, and `compose` insists on one
  segment more than there are fragments. A `Template` is built call by call and
  keeps the two lists in step: texts in a row are merged, and between two fragments
  in a row there is an empty segment.

  Nothing is known of a fragment here but that it renders. So the fragments may be of
  any type that does (`Filler`): those of the library, or whatever a program computes
  over a collector.
-/
import SqlCompose.Event
import SqlCompose.Fragment.Render

namespace SqlCompose

/-- What can be filled in between texts. -/
class Filler (φ : Type) where
  /-- The text that is filled in; its values are bound on the way. -/
  render : φ → Render String

instance : Filler Fragment := ⟨Fragment.render⟩

/-- A computation over a collector, whatever it looks at and does. -/
instance : Filler (Render String) := ⟨id⟩

/-! ## Segments and fragments -/

section Compose

variable {φ : Type} [Filler φ]

/-- A segment, a fragment, a segment, ...: the texts one after the other, with every
    fragment rendered where it stands. -/
def interleave : List String → List φ → Render String
  | [], _ => return ""
  | segment :: _, [] => return segment
  | segment :: segments, f :: fragments => do
    let sql ← Filler.render f
    let rest ← interleave segments fragments
    return segment ++ sql ++ rest

/-- The statement of segments and fragments in turn, composed on a collector that
    may hold values already. -/
def compose (segments : List String) (fragments : List φ) (c : Collector) :
    Logged Statement :=
  if segments.length ≠ fragments.length + 1 then
    Logged.refuse (.unevenSegments segments.length fragments.length)
  else
    let (sql, c) := c.run (interleave segments fragments)
    return ⟨sql, c.values⟩

end Compose

/-! ## Templates -/

/-- Text and fragments in the order in which they were added. -/
structure Template where
  segments : Array String := #[]
  fragments : Array (Render String) := #[]

namespace Template

/-- The template that starts with a text. -/
def ofText (text : String) : Template := { segments := #[text] }

/-- Whether the template ends in a fragment, or is empty. -/
def isBalanced (t : Template) : Bool := t.segments.size == t.fragments.size

/-- Adds a text: to the last segment if nothing was added since, else as a new
    one. -/
def text (t : Template) (text : String) : Template :=
  if t.isBalanced then { t with segments := t.segments.push text }
  -- Nothing was added since the last segment, which therefore exists.
  else { t with segments := t.segments.modify (t.segments.size - 1) (· ++ text) }

/-- Adds a fragment, after an empty segment if there is none since the last one. -/
def fill {φ : Type} [Filler φ] (t : Template) (f : φ) : Template :=
  { segments := if t.isBalanced then t.segments.push "" else t.segments
    fragments := t.fragments.push (Filler.render f) }

/-- The segments with an empty last one if the template ends in a fragment. -/
def closedSegments (t : Template) : Array String :=
  if t.isBalanced then t.segments.push "" else t.segments

/-- The statement of a template. -/
def render (t : Template) (style : MarkerStyle) : Logged Statement :=
  compose t.closedSegments.toList t.fragments.toList { style }

end Template

end SqlCompose
