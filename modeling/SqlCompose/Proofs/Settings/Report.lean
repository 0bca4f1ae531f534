/-
  SqlCompose.Proofs.Settings.Report

  What a report shows of the text of a statement. A text with more bytes than the limit is
  cut, and a cut inside a character would leave no text at all. This never happens: what is
  left is the longest prefix of whole characters that the limit allows, at most three
  bytes short of it. The event has either the whole text, or this prefix and three dots
  (`Settings.report_shows_longest`).
-/
import SqlCompose.Proofs.Settings.Jobs

namespace SqlCompose.Settings

/-- What is shown is the text if it may be, and else what shortening leaves of it. -/
theorem Shows.whole_or_shortened {limit : Option UInt64} {sql shown : String}
    (h : Shows limit sql shown) :
    (shown = sql ∧ ∀ m ∈ limit, sql.utf8ByteSize ≤ m.toNat) ∨
    ∃ m ∈ limit, m.toNat < sql.utf8ByteSize ∧
      ∃ kept, Text.shorten? m.toNat sql = some kept ∧ shown = kept ++ "..." := by
  cases h with
  | unlimited => exact .inl ⟨rfl, fun _ h_none => nomatch h_none⟩
  | whole h_fits =>
      refine .inl ⟨rfl, ?_⟩
      rintro m ⟨⟩
      exact h_fits
  | cut h_long h_kept => exact .inr ⟨_, rfl, h_long, _, h_kept.shorten?_eq, rfl⟩

/-- Shortening is safe and leaves as much as it can. A text can only be cut between two
    characters; still every text has a shortened one for every limit, also for a limit
    inside a character. This is the longest prefix of whole characters that has no more
    bytes than the limit: the text itself if and only if it fits, and else at most three
    bytes short of the limit. A report has the whole text if that fits into the limit of
    the settings, and else the shortened text and three dots. -/
theorem report_shows_longest (s : Settings) (statement : Statement) (events : Array Event) :
    (∀ i, (Text.front? statement.sql i).isSome = true ↔
      ∃ front, front <+: statement.sql.toList ∧ Text.bytes front = i) ∧
    (∀ m, ∃ kept : String,
      Text.shorten? m statement.sql = some kept ∧
      Text.LongestFit m statement.sql.toList kept.toList ∧
      (kept = statement.sql ↔ statement.sql.utf8ByteSize ≤ m) ∧
      (m < statement.sql.utf8ByteSize → m ≤ kept.utf8ByteSize + 3)) ∧
    ∃ event shown,
      (s.report statement).outcome events
        = (.ok (), if s.reporting then events.push event else events) ∧
      event.fields.lookup "sql" = some shown ∧
      ((shown = statement.sql ∧
          ∀ limit ∈ s.reportLimit, statement.sql.utf8ByteSize ≤ limit.toNat) ∨
        ∃ limit ∈ s.reportLimit, limit.toNat < statement.sql.utf8ByteSize ∧
          ∃ kept, Text.shorten? limit.toNat statement.sql = some kept ∧
            shown = kept ++ "...") := by
  refine ⟨fun i => Text.isSome_front?_iff, fun m => ?_, ?_⟩
  · obtain ⟨kept, h_some, h_kept⟩ := Text.exists_shorten? m statement.sql
    refine ⟨kept, h_some, h_kept, ?_, ?_⟩
    · rw [← String.toList_inj, ← Text.bytes_toList]
      exact h_kept.eq_iff
    · rw [← Text.bytes_toList, ← Text.bytes_toList]
      exact h_kept.le_bytes_add_three
  · exact ⟨_, s.reportedSql statement.sql, s.outcome_report statement events, rfl,
      (s.shows_reportedSql statement.sql).whole_or_shortened⟩

/-- A limit in front of the last byte of a character of four. -/
theorem report_shows_longest_inside :
    let s : Settings := { reportLimit := some 6 }
    let statement : Statement := ⟨"aé😀", #[]⟩
    6 < statement.sql.utf8ByteSize ∧
    Text.shorten? 6 statement.sql = some "aé" ∧
    6 ≤ "aé".utf8ByteSize + 3 ∧
    ∃ event, (s.report statement).outcome #[] = (.ok (), #[event]) ∧
      event.fields.lookup "sql" = some "aé..." := by
  intro s statement
  obtain ⟨-, h_shorten, event, shown, h_outcome, h_field, h_shown⟩ :=
    s.report_shows_longest statement #[]
  obtain ⟨kept, h_some, h_kept, -, h_short⟩ := h_shorten 6
  have h_long : 6 < statement.sql.utf8ByteSize := by decide
  have h_two : kept.toList = ['a', 'é'] := by
    rw [h_kept.unique (Text.longestFit_takeBytes 6 statement.sql.toList)]
    decide
  obtain rfl : kept = "aé" := String.toList_inj.mp h_two
  refine ⟨h_long, h_some, h_short h_long, event, h_outcome, ?_⟩
  obtain ⟨-, h_whole⟩ | ⟨limit, h_limit, -, kept, h_same, rfl⟩ := h_shown
  · exact absurd (h_whole 6 rfl) (by decide)
  · cases h_limit
    rw [h_field, Option.some.inj (h_same.symm.trans h_some)]
    rfl

end SqlCompose.Settings
