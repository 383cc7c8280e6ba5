import Mathlib.Data.List.Basic

/-!
# JSON values

`serde_json::Value`, as far as the codecs look into it.  An object keeps its members sorted by key;
`get`, `insert` and `remove` are those of its map.
-/

namespace Pharos

namespace Json

/-- `serde_json::Number`: an integer, or the bits of a float. -/
inductive Number where
  | posInt (n : UInt64)
  | negInt (n : Int64)
  | float (bits : UInt64)
  deriving DecidableEq

/-- `serde_json::Value`. -/
inductive Value where
  | null
  | bool (b : Bool)
  | number (n : Number)
  | string (s : String)
  | array (items : List Value)
  | object (members : List (String × Value))

/-- `serde_json::Map<String, Value>`. -/
abbrev Members := List (String × Value)

/-- `Value::as_object_mut`. -/
def Value.asObject : Value → Option Members
  | .object members => some members
  | _ => none

/-- `Value::as_str`. -/
def Value.asStr : Value → Option String
  | .string s => some s
  | _ => none

/-- `Value::as_u64`. -/
def Value.asU64 : Value → Option UInt64
  | .number (.posInt n) => some n
  | _ => none

namespace Members

/-- `Map::get`. -/
def get (members : Members) (key : String) : Option Value := members.lookup key

/-- What `Map::remove` leaves. -/
def remove (members : Members) (key : String) : Members :=
  members.filter fun member => member.1 ≠ key

/-- `Map::insert`: a member of that key is replaced, a new one goes to its place in the order. -/
def insert (key : String) (value : Value) : Members → Members
  | [] => [(key, value)]
  | (other, old) :: members =>
      if key = other then (key, value) :: members
      else if key < other then (key, value) :: (other, old) :: members
      else (other, old) :: insert key value members

theorem get_cons (member : String × Value) (members : Members) (key : String) :
    get (member :: members) key = if key = member.1 then some member.2 else get members key := by
  unfold get
  rw [List.lookup_cons]
  by_cases same : key = member.1
  · rw [beq_iff_eq.mpr same, if_pos same]
  · rw [beq_eq_false_iff_ne.mpr same, if_neg same]

theorem get_insert (members : Members) (key other : String) (value : Value) :
    get (insert key value members) other = if other = key then some value else get members other := by
  induction members with
  | nil => exact get_cons _ _ _
  | cons member members ih =>
      obtain ⟨first, old⟩ := member
      unfold insert
      by_cases same : key = first
      · subst same
        rw [if_pos rfl, get_cons, get_cons]
        split <;> rfl
      · rw [if_neg same]
        split
        · exact get_cons _ _ _
        · rw [get_cons, get_cons, ih]
          by_cases here : other = first
          · rw [if_pos here, if_pos here, if_neg (here ▸ Ne.symm same)]
          · rw [if_neg here, if_neg here]

theorem get_remove_of_ne (members : Members) {key other : String} (distinct : other ≠ key) :
    get (remove members key) other = get members other := by
  induction members with
  | nil => rfl
  | cons member members ih =>
      unfold remove at ih ⊢
      rw [List.filter_cons, get_cons]
      split
      · rw [get_cons, ih]
      · next dropped =>
        have same : member.1 = key := by simpa using dropped
        rw [ih, if_neg (same ▸ distinct)]

end Members

end Json

end Pharos
