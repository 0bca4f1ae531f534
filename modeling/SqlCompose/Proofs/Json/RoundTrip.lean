/-
  SqlCompose.Proofs.Json.RoundTrip

  JSON is read back from its compact text. The readers are mutually recursive and go down
  by one bound, so what holds of all three is carried from one bound to the next: behind
  the text of a value, of the items of an array and of the members of an object they give
  what was written and stop (`ReadsBack`), and they give nothing that is out of order
  (`ReadsSorted`).

  The members of an object come back in the order of their keys. So a value is read back
  if and only if its members are in that order (`parse?_compact_eq_some_iff`), as they are
  in whatever was read (`sorted_of_parse?`).
-/
import SqlCompose.Proofs.Json.Number
import SqlCompose.Proofs.Json.Text

namespace SqlCompose.Json

/-! ## Members -/

/-- A member whose key is above all others is put behind them. -/
theorem insert_of_forall_lt {key : String} {value : Json} {members : List (String × Json)}
    (h : ∀ k ∈ members.map Prod.fst, k < key) :
    insert key value members = members ++ [(key, value)] := by
  induction members with
  | nil => rfl
  | cons m ms ih =>
      obtain ⟨k, v⟩ := m
      have h_lt : k < key := h k List.mem_cons_self
      have h_ne : ¬key = k := fun h_eq => String.lt_irrefl key (h_eq ▸ h_lt)
      rw [insert, if_neg (String.lt_asymm h_lt), if_neg h_ne,
        ih fun l h_l => h l (List.mem_cons_of_mem k h_l)]
      rfl

theorem foldl_insert {members rest : List (String × Json)} (h : Ascending (members ++ rest)) :
    rest.foldl (fun ms (k, v) => insert k v ms) members = members ++ rest := by
  induction rest generalizing members with
  | nil => exact (List.append_nil members).symm
  | cons m rest ih =>
      obtain ⟨k, v⟩ := m
      have h_above : ∀ l ∈ members.map Prod.fst, l < k := by
        intro l h_l
        rw [Ascending, List.map_append, List.pairwise_append] at h
        exact h.2.2 l h_l k List.mem_cons_self
      rw [List.foldl_cons]
      simp only [insert_of_forall_lt h_above]
      rw [ih, List.append_assoc]
      · rfl
      · rw [List.append_assoc]
        exact h

/-- Members in ascending order are left as they are. -/
theorem ofMembers_of_ascending {members : List (String × Json)} (h : Ascending members) :
    ofMembers members = .object members := by
  have h_fold := @foldl_insert [] members h
  rw [List.nil_append] at h_fold
  rw [ofMembers, h_fold]

theorem sortedMembers_insert {key : String} {value : Json} {members : List (String × Json)}
    (h_value : value.Sorted) (h : SortedMembers members) :
    SortedMembers (insert key value members) := by
  induction members with
  | nil =>
      rw [insert, SortedMembers]
      exact ⟨h_value, h⟩
  | cons m ms ih =>
      obtain ⟨k, v⟩ := m
      have h_parts := h
      rw [SortedMembers] at h_parts
      rw [insert]
      by_cases h_lt : key < k
      · rw [if_pos h_lt, SortedMembers]
        exact ⟨h_value, h⟩
      · by_cases h_eq : key = k
        · rw [if_neg h_lt, if_pos h_eq, SortedMembers]
          exact ⟨h_value, h_parts.2⟩
        · rw [if_neg h_lt, if_neg h_eq, SortedMembers]
          exact ⟨h_parts.1, ih h_parts.2⟩

/-- Putting members in, one after the other, keeps the order at every level. -/
theorem sorted_ofMembers {members : List (String × Json)} (h : SortedMembers members) :
    (ofMembers members).Sorted := by
  have h_fold : ∀ sorted : List (String × Json), Ascending sorted → SortedMembers sorted →
      Ascending (members.foldl (fun ms (k, v) => insert k v ms) sorted) ∧
        SortedMembers (members.foldl (fun ms (k, v) => insert k v ms) sorted) := by
    induction members with
    | nil => exact fun sorted h_order h_sorted => ⟨h_order, h_sorted⟩
    | cons m ms ih =>
        obtain ⟨k, v⟩ := m
        intro sorted h_order h_sorted
        rw [SortedMembers] at h
        exact ih h.2 _ (ascending_insert h_order) (sortedMembers_insert h.1 h_sorted)
  rw [ofMembers, Sorted]
  exact h_fold [] List.Pairwise.nil (by rw [SortedMembers]; trivial)

/-! ## Texts -/

/-- What can be behind a value: nothing, or what goes on with an array or an object. -/
def Follows (rest : List Char) : Prop := ∀ c ∈ rest.head?, c = ',' ∨ c = ']' ∨ c = '\x7d'

theorem Follows.endsNumeral {rest : List Char} (h : Follows rest) : EndsNumeral rest := by
  intro c h_c
  rcases h c h_c with rfl | rfl | rfl
  · decide
  · decide
  · decide

theorem follows_nil : Follows [] := nofun

theorem follows_cons {c : Char} (rest : List Char) (h : c = ',' ∨ c = ']' ∨ c = '\x7d') :
    Follows (c :: rest) := by
  rintro d ⟨⟩
  exact h

/-- The character is no blank, and closes nothing. -/
def Starts (c : Char) : Prop :=
  c ≠ ' ' ∧ c ≠ '\t' ∧ c ≠ '\n' ∧ c ≠ '\r' ∧ c ≠ ']'

instance : DecidablePred Starts := fun _ => inferInstanceAs (Decidable (_ ∧ _))

theorem skip_cons {c : Char} (h : Starts c) (cs : List Char) : skip (c :: cs) = c :: cs := by
  obtain ⟨h_space, h_tab, h_line, h_return, -⟩ := h
  rw [skip, List.dropWhile_cons_of_neg]
  simp [h_space, h_tab, h_line, h_return]

/-- The text of a number starts with a digit or a sign. -/
theorem exists_head_numberText (n : Number) :
    ∃ c cs, (numberText n).toList = c :: cs ∧ (c = '-' ∨ c.isDigit = true) := by
  obtain ⟨numeral, h, h_text, -⟩ := exists_numeral_numberText n
  rw [← h_text, Numeral.text, Numeral.body]
  cases numeral.negative with
  | true => exact ⟨'-', _, rfl, .inl rfl⟩
  | false =>
      obtain ⟨c, ds, h_whole⟩ := List.exists_cons_of_ne_nil h.whole.ne_nil
      rw [h_whole]
      exact ⟨c, _, rfl, .inr (h.whole.isDigit c (h_whole ▸ List.mem_cons_self))⟩

theorem starts_of_isDigit {c : Char} (h : c.isDigit = true) : Starts c := by
  refine ⟨?_, ?_, ?_, ?_, ?_⟩ <;> (rintro rfl; cases h)

/-- The text of the items of an array, without its brackets. -/
def itemsText (items : List Json) : List Char := (",".intercalate (compactItems items)).toList

/-- The text of a member. -/
def memberText (key : String) (value : Json) : List Char :=
  '"' :: (key.toList.flatMap escapeChar ++ '"' :: ':' :: value.compact.toList)

/-- The text of the members of an object, without its braces. -/
def membersText (members : List (String × Json)) : List Char :=
  (",".intercalate (compactMembers members)).toList

theorem toList_stringText (s : String) :
    (stringText s).toList = '"' :: (s.toList.flatMap escapeChar ++ ['"']) := by
  rw [stringText, String.toList_ofList]
  rfl

theorem toList_compact_array (items : List Json) :
    (array items).compact.toList = '[' :: (itemsText items ++ [']']) := by
  rw [compact, String.toList_append, String.toList_append]
  rfl

theorem toList_compact_object (members : List (String × Json)) :
    (object members).compact.toList = '\x7b' :: (membersText members ++ ['\x7d']) := by
  rw [compact, String.toList_append, String.toList_append]
  rfl

theorem itemsText_singleton (x : Json) : itemsText [x] = x.compact.toList := by
  rw [itemsText, compactItems, compactItems, String.intercalate_singleton]

theorem itemsText_cons_cons (x y : Json) (items : List Json) :
    itemsText (x :: y :: items) = x.compact.toList ++ ',' :: itemsText (y :: items) := by
  rw [itemsText, itemsText, compactItems, compactItems, String.intercalate_cons_cons,
    String.toList_append, String.toList_append, List.append_assoc]
  rfl

theorem toList_member (key : String) (value : Json) :
    (stringText key ++ ":" ++ value.compact).toList = memberText key value := by
  rw [String.toList_append, String.toList_append, toList_stringText, memberText]
  simp

theorem membersText_singleton (key : String) (value : Json) :
    membersText [(key, value)] = memberText key value := by
  rw [membersText, compactMembers, compactMembers, String.intercalate_singleton, toList_member]

theorem membersText_cons_cons (key : String) (value : Json) (m : String × Json)
    (members : List (String × Json)) :
    membersText ((key, value) :: m :: members)
      = memberText key value ++ ',' :: membersText (m :: members) := by
  obtain ⟨k, v⟩ := m
  rw [membersText, membersText, compactMembers, compactMembers, String.intercalate_cons_cons,
    String.toList_append, String.toList_append, toList_member, List.append_assoc]
  rfl

/-- The text of a value starts with something that is neither blank nor a closing bracket. -/
theorem exists_head (j : Json) : ∃ c cs, j.compact.toList = c :: cs ∧ Starts c := by
  cases j with
  | null => exact ⟨'n', ['u', 'l', 'l'], by rw [compact]; rfl, by decide⟩
  | bool b =>
      cases b with
      | true => exact ⟨'t', ['r', 'u', 'e'], by rw [compact]; rfl, by decide⟩
      | false => exact ⟨'f', ['a', 'l', 's', 'e'], by rw [compact]; rfl, by decide⟩
  | number n =>
      obtain ⟨c, cs, h_text, h_c⟩ := exists_head_numberText n
      rw [compact]
      refine ⟨c, cs, h_text, ?_⟩
      rcases h_c with rfl | h_digit
      · decide
      · exact starts_of_isDigit h_digit
  | string s => exact ⟨'"', _, by rw [compact, toList_stringText], by decide⟩
  | array items => exact ⟨'[', _, toList_compact_array items, by decide⟩
  | object members => exact ⟨'\x7b', _, toList_compact_object members, by decide⟩

theorem exists_head_itemsText (x : Json) (items : List Json) :
    ∃ c cs, itemsText (x :: items) = c :: cs ∧ Starts c := by
  obtain ⟨c, cs, h_text, h_c⟩ := exists_head x
  cases items with
  | nil => exact ⟨c, cs, by rw [itemsText_singleton, h_text], h_c⟩
  | cons y items => exact ⟨c, _, by rw [itemsText_cons_cons, h_text, List.cons_append], h_c⟩

theorem exists_membersText (m : String × Json) (members : List (String × Json)) :
    ∃ cs, membersText (m :: members) = '"' :: cs := by
  obtain ⟨k, v⟩ := m
  cases members with
  | nil => exact ⟨_, membersText_singleton k v⟩
  | cons m' members =>
      rw [membersText_cons_cons]
      exact ⟨_, rfl⟩

/-! ## Reading values -/

theorem readName_append (name : String) (value : Json) (rest : List Char) :
    readName name value (name.toList ++ rest) = some (value, rest) := by
  have h_front : name.toList.isPrefixOf (name.toList ++ rest) = true :=
    List.isPrefixOf_iff_prefix.mpr (List.prefix_append _ _)
  rw [readName, if_pos h_front, ← String.length_toList, List.drop_left]

theorem readValue_number (n : Number) (bound : Nat) {rest : List Char} (h : Follows rest) :
    readValue (bound + 1) ((numberText n).toList ++ rest) = some (.number n, rest) := by
  have h_read := readNumber_numberText n h.endsNumeral
  obtain ⟨c, cs, h_text, h_c⟩ := exists_head_numberText n
  rw [h_text, List.cons_append] at h_read ⊢
  -- Nothing else starts with a digit or a sign.
  have h_other {d : Char} (h_minus : d ≠ '-') (h_digit : d.isDigit = false) (tail : List Char) :
      c :: (cs ++ rest) ≠ d :: tail := by
    intro h_eq
    rw [(List.cons.inj h_eq).1] at h_c
    rcases h_c with h_c | h_c
    · exact h_minus h_c
    · exact Bool.false_ne_true (h_digit.symm.trans h_c)
  rw [readValue]
  · rw [h_read]
    rfl
  all_goals exact h_other (by decide) rfl

/-- A bracket that is not closed at once opens an array with items. -/
theorem readValue_bracket (bound : Nat) {c : Char} (h : Starts c) (cs : List Char) :
    readValue (bound + 1) ('[' :: c :: cs)
      = (readItems bound (c :: cs)).map fun (items, after) => (.array items, after) := by
  rw [readValue, skip_cons h]
  split
  · rename_i h_eq
    exact absurd (List.cons.inj h_eq).1 h.2.2.2.2
  · rfl

/-- A brace with a key behind it opens an object with members. -/
theorem readValue_brace (bound : Nat) (cs : List Char) :
    readValue (bound + 1) ('\x7b' :: '"' :: cs)
      = (readMembers bound ('"' :: cs)).map fun (members, after) =>
          (ofMembers members, after) := by
  rw [readValue, skip_cons (by decide)]
  rfl

/-- With this bound the readers read back every value, the items of every array and the
    members of every object whose texts are short enough, and stop behind them. -/
structure ReadsBack (bound : Nat) : Prop where
  value : ∀ j rest, j.Sorted → 2 * j.compact.toList.length ≤ bound → Follows rest →
    readValue bound (j.compact.toList ++ rest) = some (j, rest)
  items : ∀ x items rest, SortedItems (x :: items) →
    2 * (itemsText (x :: items)).length < bound →
    readItems bound (itemsText (x :: items) ++ ']' :: rest) = some (x :: items, rest)
  members : ∀ m members rest, SortedMembers (m :: members) →
    2 * (membersText (m :: members)).length < bound →
    readMembers bound (membersText (m :: members) ++ '\x7d' :: rest) = some (m :: members, rest)

theorem ReadsBack.readValue_array {bound : Nat} (h : ReadsBack bound) {items : List Json}
    (rest : List Char) (h_sorted : (array items).Sorted)
    (h_bound : 2 * (array items).compact.toList.length ≤ bound + 1) :
    readValue (bound + 1) ((array items).compact.toList ++ rest) = some (array items, rest) := by
  rw [toList_compact_array, List.length_cons, List.length_append] at h_bound
  rw [toList_compact_array, List.cons_append, List.append_assoc, List.singleton_append]
  cases items with
  | nil => rfl
  | cons x items =>
      rw [Sorted] at h_sorted
      have h_items := h.items x items rest h_sorted (by omega)
      obtain ⟨c, cs, h_text, h_c⟩ := exists_head_itemsText x items
      rw [h_text, List.cons_append] at h_items ⊢
      rw [readValue_bracket bound h_c, h_items]
      rfl

theorem ReadsBack.readValue_object {bound : Nat} (h : ReadsBack bound)
    {members : List (String × Json)} (rest : List Char) (h_sorted : (object members).Sorted)
    (h_bound : 2 * (object members).compact.toList.length ≤ bound + 1) :
    readValue (bound + 1) ((object members).compact.toList ++ rest)
      = some (object members, rest) := by
  rw [toList_compact_object, List.length_cons, List.length_append] at h_bound
  rw [toList_compact_object, List.cons_append, List.append_assoc, List.singleton_append]
  cases members with
  | nil => rfl
  | cons m members =>
      rw [Sorted] at h_sorted
      have h_members := h.members m members rest h_sorted.2 (by omega)
      obtain ⟨cs, h_text⟩ := exists_membersText m members
      rw [h_text, List.cons_append] at h_members ⊢
      rw [readValue_brace, h_members]
      exact congrArg (fun j => some (j, rest)) (ofMembers_of_ascending h_sorted.1)

/-- One step deeper a value is read back. -/
theorem ReadsBack.readValue_succ {bound : Nat} (h : ReadsBack bound) (j : Json)
    (rest : List Char) (h_sorted : j.Sorted) (h_bound : 2 * j.compact.toList.length ≤ bound + 1)
    (h_rest : Follows rest) :
    readValue (bound + 1) (j.compact.toList ++ rest) = some (j, rest) := by
  cases j with
  | null =>
      rw [compact]
      exact readName_append "null" .null rest
  | bool b =>
      rw [compact]
      cases b with
      | true => exact readName_append "true" (.bool true) rest
      | false => exact readName_append "false" (.bool false) rest
  | number n =>
      rw [compact]
      exact readValue_number n bound h_rest
  | string s =>
      rw [compact, toList_stringText, List.cons_append, List.append_assoc, readValue,
        List.singleton_append, readString_escaped]
      rfl
  | array items => exact h.readValue_array rest h_sorted h_bound
  | object members => exact h.readValue_object rest h_sorted h_bound

theorem ReadsBack.readItems_succ {bound : Nat} (h : ReadsBack bound) (x : Json)
    (items : List Json) (rest : List Char) (h_sorted : SortedItems (x :: items))
    (h_bound : 2 * (itemsText (x :: items)).length < bound + 1) :
    readItems (bound + 1) (itemsText (x :: items) ++ ']' :: rest) = some (x :: items, rest) := by
  rw [SortedItems] at h_sorted
  cases items with
  | nil =>
      rw [itemsText_singleton] at h_bound ⊢
      rw [readItems, h.value x (']' :: rest) h_sorted.1 (by omega)
        (follows_cons rest (.inr (.inl rfl)))]
      rfl
  | cons y items =>
      rw [itemsText_cons_cons, List.length_append, List.length_cons] at h_bound
      have h_items := h.items y items rest h_sorted.2 (by omega)
      obtain ⟨c, cs, h_text, h_c⟩ := exists_head_itemsText y items
      rw [itemsText_cons_cons, List.append_assoc, List.cons_append, readItems,
        h.value x _ h_sorted.1 (by omega) (follows_cons _ (.inl rfl))]
      rw [h_text, List.cons_append] at h_items ⊢
      show (readItems bound (skip (c :: (cs ++ ']' :: rest)))).bind _ = _
      rw [skip_cons h_c, h_items]
      rfl

/-- Reads what is behind a member: the closing brace, or a comma and more members. -/
def readFurther (bound : Nat) (member : String × Json) (cs : List Char) :
    Option (List (String × Json) × List Char) :=
  match skip cs with
  | '\x7d' :: after => some ([member], after)
  | ',' :: rest => (readMembers bound (skip rest)).bind fun (members, after) =>
      some (member :: members, after)
  | _ => none

theorem ReadsBack.readMembers_memberText {bound : Nat} (h : ReadsBack bound) (key : String)
    {value : Json} {rest : List Char} (h_sorted : value.Sorted)
    (h_bound : 2 * value.compact.toList.length ≤ bound) (h_rest : Follows rest) :
    readMembers (bound + 1) (memberText key value ++ rest)
      = readFurther bound (key, value) rest := by
  have h_value := h.value value rest h_sorted h_bound h_rest
  have h_colon : Starts ':' := by decide
  obtain ⟨c, cs, h_text, h_c⟩ := exists_head value
  rw [h_text, List.cons_append] at h_value
  rw [memberText, h_text, List.cons_append, List.append_assoc, List.cons_append,
    List.cons_append, List.cons_append, readMembers]
  simp only [readString_escaped, skip_cons h_colon, skip_cons h_c, h_value, bind, pure,
    Option.bind_some]
  rfl

theorem ReadsBack.readMembers_succ {bound : Nat} (h : ReadsBack bound) (m : String × Json)
    (members : List (String × Json)) (rest : List Char) (h_sorted : SortedMembers (m :: members))
    (h_bound : 2 * (membersText (m :: members)).length < bound + 1) :
    readMembers (bound + 1) (membersText (m :: members) ++ '\x7d' :: rest)
      = some (m :: members, rest) := by
  obtain ⟨key, value⟩ := m
  rw [SortedMembers] at h_sorted
  have h_short : value.compact.toList.length ≤ (memberText key value).length := by
    rw [memberText, List.length_cons, List.length_append, List.length_cons, List.length_cons]
    omega
  cases members with
  | nil =>
      rw [membersText_singleton] at h_bound ⊢
      rw [h.readMembers_memberText key h_sorted.1 (by omega)
        (follows_cons rest (.inr (.inr rfl)))]
      rfl
  | cons m members =>
      rw [membersText_cons_cons, List.length_append, List.length_cons] at h_bound
      have h_members := h.members m members rest h_sorted.2 (by omega)
      obtain ⟨cs, h_text⟩ := exists_membersText m members
      rw [membersText_cons_cons, List.append_assoc, List.cons_append,
        h.readMembers_memberText key h_sorted.1 (by omega) (follows_cons _ (.inl rfl))]
      rw [h_text, List.cons_append] at h_members ⊢
      show (readMembers bound (skip ('"' :: (cs ++ '\x7d' :: rest)))).bind _ = _
      rw [skip_cons (by decide), h_members]
      rfl

/-- The readers read back whatever is short enough for their bound. -/
theorem readsBack (bound : Nat) : ReadsBack bound := by
  induction bound with
  | zero =>
      refine ⟨fun j rest h_sorted h_bound h_rest => ?_, fun x items rest h_sorted h_bound => ?_,
        fun m members rest h_sorted h_bound => ?_⟩
      · obtain ⟨c, cs, h_text, -⟩ := exists_head j
        rw [h_text, List.length_cons] at h_bound
        omega
      · omega
      · omega
  | succ bound ih => exact ⟨ih.readValue_succ, ih.readItems_succ, ih.readMembers_succ⟩

/-! ## What is read is sorted -/

/-- With this bound the readers give nothing that is out of order. -/
structure ReadsSorted (bound : Nat) : Prop where
  value : ∀ cs j rest, readValue bound cs = some (j, rest) → j.Sorted
  items : ∀ cs items rest, readItems bound cs = some (items, rest) → SortedItems items
  members : ∀ cs members rest, readMembers bound cs = some (members, rest) →
    SortedMembers members

theorem sorted_of_isScalar {j : Json} (h : j.isScalar = true) : j.Sorted := by
  cases j with
  | array items => cases h
  | object members => cases h
  | _ => simp [Sorted]

/-- A name stands for the value it is read as. -/
theorem eq_of_readName {name : String} {value j : Json} {cs rest : List Char}
    (h : readName name value cs = some (j, rest)) : j = value := by
  rw [readName] at h
  split at h
  · cases h
    rfl
  · cases h

theorem ReadsSorted.readValue_succ {bound : Nat} (h : ReadsSorted bound) (cs : List Char)
    (j : Json) (rest : List Char) (h_read : readValue (bound + 1) cs = some (j, rest)) :
    j.Sorted := by
  rw [readValue.eq_def] at h_read
  simp only at h_read
  split at h_read
  case h_1 =>
      split at h_read
      · cases h_read
        rw [Sorted, SortedItems]
        trivial
      · obtain ⟨⟨items, after⟩, h_items, h_eq⟩ := Option.map_eq_some_iff.mp h_read
        cases h_eq
        rw [Sorted]
        exact h.items _ items after h_items
  case h_2 =>
      split at h_read
      · cases h_read
        rw [Sorted, SortedMembers]
        exact ⟨List.Pairwise.nil, trivial⟩
      · obtain ⟨⟨members, after⟩, h_members, h_eq⟩ := Option.map_eq_some_iff.mp h_read
        cases h_eq
        exact sorted_ofMembers (h.members _ members after h_members)
  case h_3 =>
      obtain ⟨⟨s, after⟩, -, h_eq⟩ := Option.map_eq_some_iff.mp h_read
      cases h_eq
      exact sorted_of_isScalar rfl
  case h_4 => exact eq_of_readName h_read ▸ sorted_of_isScalar rfl
  case h_5 => exact eq_of_readName h_read ▸ sorted_of_isScalar rfl
  case h_6 => exact eq_of_readName h_read ▸ sorted_of_isScalar rfl
  case h_7 =>
      obtain ⟨⟨n, after⟩, -, h_eq⟩ := Option.map_eq_some_iff.mp h_read
      cases h_eq
      exact sorted_of_isScalar rfl

theorem ReadsSorted.readItems_succ {bound : Nat} (h : ReadsSorted bound) (cs : List Char)
    (items : List Json) (rest : List Char)
    (h_read : readItems (bound + 1) cs = some (items, rest)) : SortedItems items := by
  rw [readItems] at h_read
  obtain ⟨⟨x, after⟩, h_x, h_read⟩ := Option.bind_eq_some_iff.mp h_read
  have h_first : x.Sorted := h.value cs x after h_x
  simp only at h_read
  split at h_read
  · cases h_read
    rw [SortedItems, SortedItems]
    exact ⟨h_first, trivial⟩
  · obtain ⟨⟨items, after⟩, h_items, h_eq⟩ := Option.bind_eq_some_iff.mp h_read
    cases h_eq
    rw [SortedItems]
    exact ⟨h_first, h.items _ items after h_items⟩
  · cases h_read

theorem ReadsSorted.readMembers_succ {bound : Nat} (h : ReadsSorted bound) (cs : List Char)
    (members : List (String × Json)) (rest : List Char)
    (h_read : readMembers (bound + 1) cs = some (members, rest)) : SortedMembers members := by
  rw [readMembers.eq_def] at h_read
  simp only at h_read
  split at h_read
  case h_2 => cases h_read
  obtain ⟨⟨key, after⟩, -, h_read⟩ := Option.bind_eq_some_iff.mp h_read
  simp only at h_read
  split at h_read
  case h_2 => cases h_read
  obtain ⟨⟨x, after⟩, h_x, h_read⟩ := Option.bind_eq_some_iff.mp h_read
  have h_first : x.Sorted := h.value _ x after h_x
  simp only at h_read
  split at h_read
  · cases h_read
    rw [SortedMembers, SortedMembers]
    exact ⟨h_first, trivial⟩
  · obtain ⟨⟨members, after⟩, h_members, h_eq⟩ := Option.bind_eq_some_iff.mp h_read
    cases h_eq
    rw [SortedMembers]
    exact ⟨h_first, h.members _ members after h_members⟩
  · cases h_read

/-- The readers give nothing that is out of order. -/
theorem readsSorted (bound : Nat) : ReadsSorted bound := by
  induction bound with
  | zero =>
      refine ⟨fun cs j rest h_read => ?_, fun cs items rest h_read => ?_,
        fun cs members rest h_read => ?_⟩
      · cases h_read
      · cases h_read
      · cases h_read
  | succ bound ih => exact ⟨ih.readValue_succ, ih.readItems_succ, ih.readMembers_succ⟩

/-! ## Whole texts -/

/-- Whatever is read has its members in the order of their keys, at every level. -/
theorem sorted_of_parse? {s : String} {j : Json} (h : parse? s = some j) : j.Sorted := by
  rw [parse?] at h
  split at h
  · rename_i value rest h_read
    split at h
    · cases h
      exact (readsSorted _).value _ j rest h_read
    · cases h
  · cases h

/-- The compact text of a value is read as that value if and only if the members of every
    object in it are in the order of their keys. -/
theorem parse?_compact_eq_some_iff (j : Json) : parse? j.compact = some j ↔ j.Sorted := by
  constructor
  · exact sorted_of_parse?
  · intro h_sorted
    obtain ⟨c, cs, h_text, h_c⟩ := exists_head j
    have h_skip : skip j.compact.toList = j.compact.toList := by
      rw [h_text, skip_cons h_c]
    have h_read := (readsBack (2 * j.compact.toList.length + 1)).value j [] h_sorted
      (Nat.le_succ _) follows_nil
    rw [List.append_nil] at h_read
    rw [parse?]
    simp only [h_skip, h_read]
    rfl

end SqlCompose.Json
