/-
  SqlCompose.Json.Basic

  JSON data. A number is an integer of the 64-bit range, signed or unsigned, or a
  finite floating-point number, and the two kinds are never equal. The members of
  an object are kept in ascending order of their keys, each key once; `object`
  builds them so, and of two members with one key the later wins.

    * `Json.Sorted`        -- the order of members holds at every level;
    * `ascending_insert`   -- inserting a member keeps the order.
-/
import SqlCompose.Binary.Basic

namespace SqlCompose

-- Powers are those of the core library, whatever else is in scope.
attribute [local instance (high)] instPowNat

/-- A number of a JSON text. -/
inductive Number where
  /-- An integer that is a signed or an unsigned one of 64 bits. -/
  | whole (n : Int) (inRange : -2 ^ (63 : Nat) ≤ n ∧ n < 2 ^ (64 : Nat))
  /-- Any other number. -/
  | real (x : Double) (isFinite : x.isFinite = true)
deriving DecidableEq

namespace Number

/-- Integers are equal as integers, the others as floating-point numbers. -/
protected def beq : Number → Number → Bool
  | .whole m _, .whole n _ => m == n
  | .real x _, .real y _ => x == y
  | _, _ => false

instance : BEq Number := ⟨Number.beq⟩

/-- `n` as a number, if it is in range. -/
def ofInt? (n : Int) : Option Number :=
  if h : -2 ^ (63 : Nat) ≤ n ∧ n < 2 ^ (64 : Nat) then some (.whole n h) else none

/-- `x` as a number, if it is finite. -/
def ofDouble? (x : Double) : Option Number :=
  if h : x.isFinite = true then some (.real x h) else none

end Number

/-- A JSON value. -/
inductive Json where
  | null
  | bool (b : Bool)
  | number (n : Number)
  | string (s : String)
  | array (items : List Json)
  | object (members : List (String × Json))

namespace Json

/-! ## Equality -/

mutual

/-- Equality of values: numbers as `Number.beq` has it, all else by content. -/
protected def beq : Json → Json → Bool
  | .null, .null => true
  | .bool a, .bool b => a == b
  | .number m, .number n => m == n
  | .string s, .string t => s == t
  | .array xs, .array ys => beqItems xs ys
  | .object ms, .object ns => beqMembers ms ns
  | _, _ => false

/-- Equality of arrays, item by item. -/
def beqItems : List Json → List Json → Bool
  | [], [] => true
  | x :: xs, y :: ys => x.beq y && beqItems xs ys
  | _, _ => false

/-- Equality of objects, member by member. -/
def beqMembers : List (String × Json) → List (String × Json) → Bool
  | [], [] => true
  | (k, x) :: ms, (l, y) :: ns => k == l && x.beq y && beqMembers ms ns
  | _, _ => false

end

instance : BEq Json := ⟨Json.beq⟩

/-! ## Members -/

/-- Puts a member into its place by key, over an earlier one with that key. -/
def insert (key : String) (value : Json) : List (String × Json) → List (String × Json)
  | [] => [(key, value)]
  | (k, v) :: rest =>
    if key < k then (key, value) :: (k, v) :: rest
    else if key = k then (key, value) :: rest
    else (k, v) :: insert key value rest

/-- The object with the given members, later ones over earlier ones. -/
def ofMembers (members : List (String × Json)) : Json :=
  .object (members.foldl (fun ms (k, v) => insert k v ms) [])

/-- The member of an object with the given key. -/
def member? (key : String) : Json → Option Json
  | .object members => members.lookup key
  | _ => none

/-- Whether the value is neither an array nor an object. -/
def isScalar : Json → Bool
  | .array _ | .object _ => false
  | _ => true

/-! ## The order of members -/

/-- The keys are in ascending order, each once. -/
def Ascending (members : List (String × Json)) : Prop :=
  (members.map Prod.fst).Pairwise (· < ·)

mutual

/-- The members of every object in the value are in ascending order. -/
def Sorted : Json → Prop
  | .array items => SortedItems items
  | .object members => Ascending members ∧ SortedMembers members
  | _ => True

/-- Every item of an array is sorted. -/
def SortedItems : List Json → Prop
  | [] => True
  | x :: xs => x.Sorted ∧ SortedItems xs

/-- Every member of an object is sorted. -/
def SortedMembers : List (String × Json) → Prop
  | [] => True
  | (_, x) :: ms => x.Sorted ∧ SortedMembers ms

end

theorem key_insert {key k : String} {value : Json} {members : List (String × Json)}
    (h : k ∈ (insert key value members).map Prod.fst) :
    k = key ∨ k ∈ members.map Prod.fst := by
  induction members with
  | nil => simpa [insert] using h
  | cons m ms ih =>
      obtain ⟨l, v⟩ := m
      simp only [insert] at h
      split at h
      · simpa using h
      · split at h
        · simp only [List.map_cons, List.mem_cons] at h ⊢
          exact h.imp_right Or.inr
        · simp only [List.map_cons, List.mem_cons] at h ⊢
          rcases h with h | h
          · exact Or.inr (Or.inl h)
          · exact (ih h).imp_right Or.inr

/-- Inserting a member keeps the keys in ascending order. -/
theorem ascending_insert {key : String} {value : Json} {members : List (String × Json)}
    (h : Ascending members) : Ascending (insert key value members) := by
  induction members with
  | nil => simp [insert, Ascending]
  | cons m ms ih =>
      obtain ⟨l, v⟩ := m
      obtain ⟨h_first, h_rest⟩ := List.pairwise_cons.1 h
      simp only [insert]
      split
      · rename_i h_lt
        refine List.pairwise_cons.2 ⟨fun k hk => ?_, h⟩
        rcases List.mem_cons.1 hk with rfl | hk
        · exact h_lt
        · exact String.lt_trans h_lt (h_first k hk)
      · split
        · rename_i h_eq
          subst h_eq
          exact h
        -- The member goes further down, and its key is above the first one.
        · rename_i h_ge h_ne
          refine List.pairwise_cons.2 ⟨fun k hk => ?_, ih h_rest⟩
          rcases key_insert hk with rfl | hk
          · exact Std.lt_of_le_of_ne (String.not_lt.1 h_ge) (Ne.symm h_ne)
          · exact h_first k hk

end Json

end SqlCompose
