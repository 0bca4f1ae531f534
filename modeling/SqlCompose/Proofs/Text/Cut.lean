/-
  SqlCompose.Proofs.Text.Cut

  What cutting a text to a number of bytes leaves. `LongestFit m cs kept` says that
  `kept` is the longest prefix of `cs` that has at most `m` bytes, without saying how
  to find it; there is no other (`LongestFit.unique`).

  It is found from both sides. `takeBytes` goes forward over the characters and keeps each
  one that fits into what is left (`longestFit_takeBytes`). Going back over the bytes ends
  at the same place (`lastBoundary_eq`), because a text can be cut exactly behind its
  prefixes (`isBoundary_iff`); so what is left of a text that is shortened is what
  `takeBytes` keeps (`shorten?_eq`).
-/
import Mathlib.Data.Nat.Find
import SqlCompose.Text.Cut

namespace SqlCompose.Text

-- Sums start at the zero of the core library, whatever else is in scope.
attribute [local instance (high)] Zero.ofOfNat0

/-! ## Bytes -/

/-- The number of bytes of the UTF-8 form of `cs`. -/
def bytes (cs : List Char) : Nat := (cs.map Char.utf8Size).sum

@[simp] theorem bytes_nil : bytes [] = 0 := rfl

@[simp] theorem bytes_cons (c : Char) (cs : List Char) :
    bytes (c :: cs) = c.utf8Size + bytes cs := rfl

theorem bytes_append (cs others : List Char) : bytes (cs ++ others) = bytes cs + bytes others := by
  induction cs with
  | nil => simp
  | cons c cs ih => rw [List.cons_append, bytes_cons, bytes_cons, ih, Nat.add_assoc]

theorem bytes_le_of_isPrefix {cs others : List Char} (h : cs <+: others) :
    bytes cs ≤ bytes others := by
  obtain ⟨rest, rfl⟩ := h
  rw [bytes_append]
  exact Nat.le_add_right _ _

theorem utf8ByteSize_ofList (cs : List Char) : (String.ofList cs).utf8ByteSize = bytes cs := by
  rw [← String.size_toByteArray, String.toByteArray_ofList, List.utf8Encode,
    List.size_toByteArray, List.length_flatMap]
  simp only [String.length_utf8EncodeChar]
  rfl

theorem bytes_toList (s : String) : bytes s.toList = s.utf8ByteSize := by
  rw [← utf8ByteSize_ofList, String.ofList_toList]

/-! ## The longest prefix that fits -/

/-- `kept` is the longest of the prefixes of `cs` that have at most `m` bytes. -/
structure LongestFit (m : Nat) (cs kept : List Char) : Prop where
  isPrefix : kept <+: cs
  fits : bytes kept ≤ m
  longest : ∀ other, other <+: cs → bytes other ≤ m → other <+: kept

namespace LongestFit

variable {m : Nat} {cs kept other : List Char}

theorem unique (h : LongestFit m cs kept) (h_other : LongestFit m cs other) : kept = other :=
  (h_other.longest kept h.isPrefix h.fits).eq_of_length_le
    (h.longest other h_other.isPrefix h_other.fits).length_le

/-- Nothing is cut off if and only if the whole fits. -/
theorem eq_iff (h : LongestFit m cs kept) : kept = cs ↔ bytes cs ≤ m := by
  constructor
  · rintro rfl
    exact h.fits
  · intro h_fits
    exact h.isPrefix.eq_of_length_le (h.longest cs (List.prefix_refl cs) h_fits).length_le

/-- The character behind what is kept does not fit, and it has at most four bytes. -/
theorem le_bytes_add_three (h : LongestFit m cs kept) (h_long : m < bytes cs) :
    m ≤ bytes kept + 3 := by
  obtain ⟨rest, h_cs⟩ := h.isPrefix
  cases rest with
  | nil =>
      rw [List.append_nil] at h_cs
      have := h.eq_iff.mp h_cs
      omega
  | cons c rest =>
      by_contra h_short
      have h_size : c.utf8Size ≤ 4 := c.utf8Size_le_four
      have h_front : kept ++ [c] <+: cs := ⟨rest, by rw [List.append_assoc]; exact h_cs⟩
      have h_fits : bytes (kept ++ [c]) ≤ m := by
        rw [bytes_append, bytes_cons, bytes_nil]
        omega
      have h_length := (h.longest _ h_front h_fits).length_le
      rw [List.length_append, List.length_singleton] at h_length
      omega

end LongestFit

/-! ## Going forward over the characters -/

/-- Keeps characters as long as they fit into what is left of `m` bytes. -/
def takeBytes : Nat → List Char → List Char
  | _, [] => []
  | m, c :: cs => if c.utf8Size ≤ m then c :: takeBytes (m - c.utf8Size) cs else []

theorem bytes_takeBytes_le (m : Nat) (cs : List Char) : bytes (takeBytes m cs) ≤ m := by
  induction cs generalizing m with
  | nil => simp [takeBytes]
  | cons c cs ih =>
      simp only [takeBytes]
      split
      · have := ih (m - c.utf8Size)
        simp only [bytes_cons]
        omega
      · simp

theorem takeBytes_isPrefix (m : Nat) (cs : List Char) : takeBytes m cs <+: cs := by
  induction cs generalizing m with
  | nil => simp [takeBytes]
  | cons c cs ih =>
      simp only [takeBytes]
      split
      · exact (List.cons_prefix_cons).2 ⟨rfl, ih _⟩
      · exact List.nil_prefix

/-- A prefix that fits is one of what is kept. -/
theorem isPrefix_takeBytes {m : Nat} {cs other : List Char} (h_front : other <+: cs)
    (h_fits : bytes other ≤ m) : other <+: takeBytes m cs := by
  induction cs generalizing m other with
  | nil =>
      rw [List.prefix_nil.mp h_front]
      exact List.nil_prefix
  | cons c cs ih =>
      cases other with
      | nil => exact List.nil_prefix
      | cons d other =>
          obtain ⟨rfl, h_rest⟩ := List.cons_prefix_cons.mp h_front
          rw [bytes_cons] at h_fits
          have h_first : d.utf8Size ≤ m := by omega
          rw [takeBytes, if_pos h_first]
          exact List.cons_prefix_cons.mpr ⟨rfl, ih h_rest (by omega)⟩

theorem longestFit_takeBytes (m : Nat) (cs : List Char) : LongestFit m cs (takeBytes m cs) where
  isPrefix := takeBytes_isPrefix m cs
  fits := bytes_takeBytes_le m cs
  longest := fun _ h_front h_fits => isPrefix_takeBytes h_front h_fits

/-! ## Going back over the bytes -/

/-- A text can be cut exactly behind its prefixes of whole characters. -/
theorem isBoundary_iff {s : String} {i : Nat} :
    isBoundary s i = true ↔ ∃ front, front <+: s.toList ∧ bytes front = i := by
  rw [isBoundary_iff_isValid, String.Pos.Raw.isValid_iff_exists_take_toList]
  constructor
  · rintro ⟨n, h_size⟩
    refine ⟨s.toList.take n, List.take_prefix n s.toList, ?_⟩
    rw [← utf8ByteSize_ofList]
    exact h_size.symm
  · rintro ⟨front, h_front, rfl⟩
    refine ⟨front.length, ?_⟩
    rw [← List.prefix_iff_eq_take.mp h_front, utf8ByteSize_ofList]

theorem lastBoundary_eq_findGreatest (s : String) (m : Nat) :
    lastBoundary s m = Nat.findGreatest (isBoundary s · = true) m := by
  induction m with
  | zero => rfl
  | succ i ih => rw [lastBoundary, Nat.findGreatest_succ, ih]

/-- Going back over the bytes ends where going forward over the characters ends. -/
theorem lastBoundary_eq (s : String) (m : Nat) :
    lastBoundary s m = bytes (takeBytes m s.toList) := by
  apply Nat.le_antisymm
  -- It ends behind a prefix that fits, which is one of what is kept.
  · obtain ⟨front, h_front, h_bytes⟩ := isBoundary_iff.mp (isBoundary_lastBoundary s m)
    have h_fits : bytes front ≤ m := by
      rw [h_bytes, lastBoundary_eq_findGreatest]
      exact Nat.findGreatest_le m
    rw [← h_bytes]
    exact bytes_le_of_isPrefix (isPrefix_takeBytes h_front h_fits)
  -- What is kept ends at a place that going back does not pass.
  · rw [lastBoundary_eq_findGreatest]
    exact Nat.le_findGreatest (bytes_takeBytes_le m s.toList)
      (isBoundary_iff.mpr ⟨_, takeBytes_isPrefix m s.toList, rfl⟩)

/-- The first bytes of a text are its prefix of so many bytes. -/
theorem front?_bytes {s : String} {front : List Char} (h : front <+: s.toList) :
    front? s (bytes front) = some (String.ofList front) := by
  have h_cut : isBoundary s (bytes front) = true := isBoundary_iff.mpr ⟨front, h, rfl⟩
  obtain ⟨rest, h_text⟩ := h
  have h_bytes : s.toByteArray.extract 0 (bytes front) = (String.ofList front).toByteArray := by
    rw [← s.ofList_toList, ← h_text, String.ofList_append, String.toByteArray_append]
    apply ByteArray.extract_append_eq_left
    rw [String.size_toByteArray, utf8ByteSize_ofList]
  rw [front?, if_pos h_cut, String.toUTF8_eq_toByteArray, h_bytes, String.fromUTF8?,
    dif_pos (String.ofList front).isValidUTF8]
  rfl

/-- The first bytes of a text are a text exactly if they are those of whole characters. -/
theorem isSome_front?_iff {s : String} {i : Nat} :
    (front? s i).isSome = true ↔ ∃ front, front <+: s.toList ∧ bytes front = i := by
  rw [← isBoundary_iff]
  constructor
  · intro h_some
    by_contra h_inside
    rw [front?, if_neg h_inside] at h_some
    exact Bool.false_ne_true h_some
  · exact isSome_front?

example : front? "é" 1 = none := by decide

/-- A text is shortened to what fits. -/
theorem shorten?_eq (m : Nat) (s : String) :
    shorten? m s = some (String.ofList (takeBytes m s.toList)) := by
  rw [shorten?]
  split
  case isTrue h_fits =>
    rw [← bytes_toList] at h_fits
    rw [(longestFit_takeBytes m s.toList).eq_iff.mpr h_fits, String.ofList_toList]
  case isFalse =>
    rw [lastBoundary_eq, front?_bytes (takeBytes_isPrefix m s.toList)]

example : shorten? 2 "héllo" = some "h" := by decide

theorem exists_shorten? (m : Nat) (s : String) :
    ∃ kept, shorten? m s = some kept ∧ LongestFit m s.toList kept.toList := by
  refine ⟨_, shorten?_eq m s, ?_⟩
  rw [String.toList_ofList]
  exact longestFit_takeBytes m s.toList

theorem LongestFit.shorten?_eq {m : Nat} {s : String} {kept : List Char}
    (h : LongestFit m s.toList kept) : shorten? m s = some (String.ofList kept) := by
  rw [Text.shorten?_eq, h.unique (longestFit_takeBytes m s.toList)]

theorem abbreviate_eq (m : Nat) (s : String) :
    abbreviate m s = if s.utf8ByteSize ≤ m then s
      else String.ofList (takeBytes m s.toList) ++ "..." := by
  simp only [abbreviate, shorten?_eq, Option.get_some]

end SqlCompose.Text
