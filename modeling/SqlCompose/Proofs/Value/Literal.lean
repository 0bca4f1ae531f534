/-
  SqlCompose.Proofs.Value.Literal

  Literals read back. `readLiteral` reads one SQL string literal from the front of a
  text: a single quote, then everything up to the next quote that is not followed by
  a second one, where two quotes stand for one.

  What a literal reads back as does not depend on what it holds, only on whether what
  follows starts with a quote (`Text.readQuoted_eq_some_iff`). `ReadsBack` says what
  that means for a literal in a longer text, and `literal_readsBack` that the literals
  of texts and of JSON have it. Of JSON that is the compact text, which is read as the
  JSON value again.
-/
import SqlCompose.Proofs.Json.RoundTrip
import SqlCompose.Proofs.Text.Quoted
import SqlCompose.Value.Literal

namespace SqlCompose

/-! ## Literals -/

namespace Value

/-- Reads one string literal from the front of a text: its content, and what follows. -/
def readLiteral (text : String) : Option (String × String) :=
  match text.toList with
  | '\'' :: rest =>
    (Text.readQuoted '\'' rest).map fun (content, after) =>
      (String.ofList content, String.ofList after)
  | _ => none

/-- In every longer text, `literal` reads back as `content`. -/
structure ReadsBack (literal content : String) : Prop where
  /-- Reading gives the content and stops where the literal ends, unless a quote follows. -/
  exact : ∀ after : String, after.toList.head? ≠ some '\'' →
    readLiteral (literal ++ after) = some (content, after)
  /-- Whatever follows, reading does not stop inside the literal. -/
  covers : ∀ after read rest : String, readLiteral (literal ++ after) = some (read, rest) →
    ∃ more skipped : String, read = content ++ more ∧ after = skipped ++ rest

theorem readLiteral_quoted_append (content after : String) :
    readLiteral (Text.quoted '\'' content ++ after)
      = (Text.readQuoted '\'' (Text.doubled '\'' content.toList ++ '\'' :: after.toList)).map
          fun (read, rest) => (String.ofList read, String.ofList rest) := by
  have h_text : (Text.quoted '\'' content ++ after).toList
      = '\'' :: (Text.doubled '\'' content.toList ++ '\'' :: after.toList) := by
    rw [String.toList_append, Text.quoted, String.toList_ofList]
    simp
  rw [readLiteral, h_text]
  rfl

theorem readsBack_quoted (content : String) : ReadsBack (Text.quoted '\'' content) content where
  exact := by
    intro after h_after
    rw [readLiteral_quoted_append, Text.readQuoted_eq_some_iff.mpr ⟨rfl, h_after⟩]
    simp only [Option.map_some, String.ofList_toList]
  covers := by
    intro after read rest h
    rw [readLiteral_quoted_append] at h
    obtain ⟨⟨cs, tail⟩, h_read, h_eq⟩ := Option.map_eq_some_iff.mp h
    obtain ⟨rfl, rfl⟩ := Prod.mk.inj h_eq
    rw [Text.readQuoted_doubled] at h_read
    obtain ⟨⟨more, last⟩, h_more, h_parts⟩ := Option.map_eq_some_iff.mp h_read
    obtain ⟨rfl, rfl⟩ := Prod.mk.inj h_parts
    -- The closing quote is the last one that is read, here or further on.
    have h_after := Text.eq_doubled_of_readQuoted h_more
    obtain ⟨skipped, h_skipped⟩ : ∃ skipped, after.toList = skipped ++ last := by
      cases h_doubled : Text.doubled '\'' more with
      | nil =>
          rw [h_doubled, List.nil_append, List.cons.injEq] at h_after
          exact ⟨[], h_after.2⟩
      | cons c cs =>
          rw [h_doubled, List.cons_append, List.cons.injEq] at h_after
          exact ⟨cs ++ ['\''], by rw [h_after.2]; simp⟩
    refine ⟨String.ofList more, String.ofList skipped, ?_, ?_⟩
    · rw [String.ofList_append, String.ofList_toList]
    · rw [← String.ofList_append, ← h_skipped, String.ofList_toList]

/-- A literal that reads back has one content. -/
theorem ReadsBack.content_eq {literal content other : String} (h : ReadsBack literal content)
    (h_other : ReadsBack literal other) : content = other := by
  have h_empty : ("" : String).toList.head? ≠ some '\'' := by decide
  have h_both := (h.exact "" h_empty).symm.trans (h_other.exact "" h_empty)
  exact (Prod.mk.inj (Option.some.inj h_both)).1

/-- The literals of texts and of JSON read back, as the text and as the compact text of the
    JSON value; sorted JSON is read from that again. So values with one literal have one
    text. -/
theorem literal_readsBack (s : String) (j : Json) :
    ReadsBack (text s).literal s ∧ ReadsBack (json j).literal j.compact ∧
    (Json.parse? j.compact = some j ↔ j.Sorted) ∧
    (∀ t : String, (text s).literal = (text t).literal → s = t) ∧
    (∀ i : Json, (json j).literal = (json i).literal → j.compact = i.compact) ∧
    ((text s).literal = (json j).literal → s = j.compact) := by
  have h_text (t : String) : ReadsBack (text t).literal t := readsBack_quoted t
  have h_json (i : Json) : ReadsBack (json i).literal i.compact := readsBack_quoted i.compact
  refine ⟨h_text s, h_json j, Json.parse?_compact_eq_some_iff j, ?_, ?_, ?_⟩
  · intro t h
    exact (h ▸ h_text s).content_eq (h_text t)
  · intro i h
    exact (h ▸ h_json j).content_eq (h_json i)
  · intro h
    exact (h ▸ h_text s).content_eq (h_json j)

end Value

end SqlCompose
