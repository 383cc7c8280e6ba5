import Pharos.Text.Fields

/-!
# Derived deserialization of a structure

What a derived `Deserialize` of a structure with two fields accepts.  A format hands over a map, whose
keys name the fields in any order among others that are ignored, or a sequence with the fields in
their order.  Each field is read by a function of its own.
-/

namespace Serde

/-- The key of a member of a map, as the format has it. -/
inductive Key
  | name (s : String)
  | index (n : UInt64)
  | bytes (b : List UInt8)
  | other
deriving DecidableEq

/-- What a format hands to a visitor; `other` is whatever neither a text, an integer of at most 64
bits, a sequence nor a map is. -/
inductive Value
  | unsigned (n : UInt64)
  | signed (n : Int64)
  | string (s : String)
  | bytes (b : List UInt8)
  | seq (items : List Value)
  | map (members : List (Key × Value))
  | other

inductive Error
  | invalidType
  | invalidValue
  | missingField (name : String)
  | duplicateField (name : String)
  | invalidLength (n : Nat)
  | trailing
  | custom (message : String)
deriving DecidableEq

/-! ## Fields -/

/-- `String::deserialize`. -/
def readString : Value → Except Error String
  | .string s => .ok s
  | .bytes b =>
    match String.fromUTF8? b.toByteArray with
    | some s => .ok s
    | none => .error .invalidValue
  | _ => .error .invalidType

/-- `u8::deserialize`. -/
def readU8 : Value → Except Error UInt8
  | .unsigned n => if n.toNat < 256 then .ok n.toUInt8 else .error .invalidValue
  | .signed n =>
    if 0 ≤ n.toInt ∧ n.toInt < 256 then .ok (UInt8.ofNat n.toInt.toNat) else .error .invalidValue
  | _ => .error .invalidType

/-- A field of a structure: its name, its place and how its value is read. -/
structure Field (α : Type) where
  name : String
  index : UInt64
  read : Value → Except Error α

variable {α β : Type}

/-- A key is the field's. -/
def Field.names (f : Field α) : Key → Bool
  | .name s => s = f.name
  | .index n => n = f.index
  | .bytes b => b = Text.bytes f.name
  | .other => false

/-- No key is the key of both fields. -/
def Field.Apart (f : Field α) (g : Field β) : Prop :=
  ∀ key, f.names key = true → g.names key = false

theorem apart_of_ne {f : Field α} {g : Field β} (names : f.name ≠ g.name)
    (indices : f.index ≠ g.index) (bytes : Text.bytes f.name ≠ Text.bytes g.name) : f.Apart g := by
  intro key named
  cases key with
  | name s =>
    obtain rfl := of_decide_eq_true named
    exact decide_eq_false names
  | index n =>
    obtain rfl := of_decide_eq_true named
    exact decide_eq_false indices
  | bytes b =>
    obtain rfl := of_decide_eq_true named
    exact decide_eq_false bytes
  | other => cases named

/-- `visit_map`, with what was read of the two fields so far. -/
def visitMap (f : Field α) (g : Field β) :
    List (Key × Value) → Option α → Option β → Except Error (α × β)
  | [], some a, some b => .ok (a, b)
  | [], none, _ => .error (.missingField f.name)
  | [], some _, none => .error (.missingField g.name)
  | (key, value) :: members, a, b =>
    if key = .other then .error .invalidType
    else if f.names key then
      if a.isSome then .error (.duplicateField f.name)
      else do
        let read ← f.read value
        visitMap f g members (some read) b
    else if g.names key then
      if b.isSome then .error (.duplicateField g.name)
      else do
        let read ← g.read value
        visitMap f g members a (some read)
    else visitMap f g members a b

/-- `visit_seq`.  What is left over is for the format to refuse, where it does. -/
def visitSeq (refusesRest : Bool) (f : Field α) (g : Field β) :
    List Value → Except Error (α × β)
  | [] => .error (.invalidLength 0)
  | [value] => do
    let _ ← f.read value
    .error (.invalidLength 1)
  | first :: second :: rest => do
    let a ← f.read first
    let b ← g.read second
    if refusesRest && !rest.isEmpty then .error .trailing else .ok (a, b)

/-- The derived `deserialize`. -/
def deserializeStruct (refusesRest : Bool) (f : Field α) (g : Field β) :
    Value → Except Error (α × β)
  | .map members => visitMap f g members none none
  | .seq items => visitSeq refusesRest f g items
  | _ => .error .invalidType

/-! ## What is accepted -/

/-- The values a map has for a field. -/
def Field.values (f : Field α) (members : List (Key × Value)) : List Value :=
  (members.filter fun member => f.names member.1).map Prod.snd

/-- The map gives a field the value `a`: it has one member for it, or none when `seen` was read. -/
def Field.Given (f : Field α) (members : List (Key × Value)) : Option α → α → Prop
  | some seen, a => f.values members = [] ∧ seen = a
  | none, a => ∃ value, f.values members = [value] ∧ f.read value = .ok a

/-- The document presents the two fields. -/
def Presents (refusesRest : Bool) (f : Field α) (g : Field β) (a : α) (b : β) : Value → Prop
  | .map members =>
    (∀ member ∈ members, member.1 ≠ .other) ∧ f.Given members none a ∧ g.Given members none b
  | .seq items =>
    ∃ first second rest, items = first :: second :: rest ∧ f.read first = .ok a ∧
      g.read second = .ok b ∧ (refusesRest = true → rest = [])
  | _ => False

section

variable {f : Field α} {g : Field β} {member : Key × Value} {members : List (Key × Value)}
  {seen : Option α} {a : α}

theorem given_cons_of_names (named : f.names member.1 = true) :
    f.Given (member :: members) seen a ↔
      seen = none ∧ ∃ read, f.read member.2 = .ok read ∧ f.Given members (some read) a := by
  have values : f.values (member :: members) = member.2 :: f.values members := by
    simp [Field.values, named]
  cases seen with
  | some before => simp [Field.Given, values]
  | none =>
    simp only [Field.Given, values, List.cons.injEq, true_and]
    constructor
    · rintro ⟨value, ⟨rfl, none⟩, read⟩
      exact ⟨a, read, none, rfl⟩
    · rintro ⟨_, read, none, rfl⟩
      exact ⟨_, ⟨rfl, none⟩, read⟩

theorem given_cons_of_not_names (other : f.names member.1 = false) :
    f.Given (member :: members) seen a ↔ f.Given members seen a := by
  have values : f.values (member :: members) = f.values members := by
    simp [Field.values, other]
  cases seen <;> simp [Field.Given, values]

end

theorem bind_eq_ok_iff {γ δ : Type} {x : Except Error γ} {next : γ → Except Error δ} {d : δ} :
    x >>= next = .ok d ↔ ∃ c, x = .ok c ∧ next c = .ok d := by
  cases x with
  | error error =>
    constructor
    · intro run
      cases run
    · rintro ⟨_, read, -⟩
      cases read
  | ok c =>
    constructor
    · exact fun run => ⟨c, rfl, run⟩
    · rintro ⟨_, read, run⟩
      obtain rfl := Except.ok.inj read
      exact run

theorem given_nil_iff {f : Field α} {seen : Option α} {a : α} :
    f.Given [] seen a ↔ seen = some a := by
  cases seen with
  | none => simp [Field.Given, Field.values]
  | some before => simp [Field.Given, Field.values]

/-- A map is accepted when it gives each field a value, once. -/
theorem visitMap_eq_ok_iff {f : Field α} {g : Field β} (apart : f.Apart g)
    {members : List (Key × Value)} {seenA : Option α} {seenB : Option β} {a : α} {b : β} :
    visitMap f g members seenA seenB = .ok (a, b) ↔
      (∀ member ∈ members, member.1 ≠ .other) ∧ f.Given members seenA a ∧
        g.Given members seenB b := by
  induction members generalizing seenA seenB with
  | nil =>
    rw [given_nil_iff, given_nil_iff]
    cases seenA <;> cases seenB <;> simp [visitMap]
  | cons member members ih =>
    obtain ⟨key, value⟩ := member
    rw [List.forall_mem_cons]
    unfold visitMap
    by_cases other : key = .other
    · rw [if_pos other]
      constructor
      · intro run
        cases run
      · rintro ⟨⟨named, -⟩, -⟩
        exact absurd other named
    rw [if_neg other]
    by_cases isFirst : f.names key = true
    · -- the member of the first field, which must not have been read
      rw [if_pos isFirst, given_cons_of_names isFirst, given_cons_of_not_names (apart key isFirst)]
      cases seenA with
      | some before => simp
      | none =>
        simp only [Option.isSome_none, Bool.false_eq_true, if_false, bind_eq_ok_iff, ih]
        constructor
        · rintro ⟨read, ran, names, first, second⟩
          exact ⟨⟨other, names⟩, ⟨trivial, read, ran, first⟩, second⟩
        · rintro ⟨⟨-, names⟩, ⟨-, read, ran, first⟩, second⟩
          exact ⟨read, ran, names, first, second⟩
    rw [if_neg isFirst, given_cons_of_not_names (Bool.eq_false_iff.2 isFirst)]
    by_cases isSecond : g.names key = true
    · rw [if_pos isSecond, given_cons_of_names isSecond]
      cases seenB with
      | some before => simp
      | none =>
        simp only [Option.isSome_none, Bool.false_eq_true, if_false, bind_eq_ok_iff, ih]
        constructor
        · rintro ⟨read, ran, names, first, second⟩
          exact ⟨⟨other, names⟩, first, ⟨trivial, read, ran, second⟩⟩
        · rintro ⟨⟨-, names⟩, first, ⟨-, read, ran, second⟩⟩
          exact ⟨read, ran, names, first, second⟩
    · -- a member that is ignored
      rw [if_neg isSecond, given_cons_of_not_names (Bool.eq_false_iff.2 isSecond), ih]
      constructor
      · exact fun ⟨names, first, second⟩ => ⟨⟨other, names⟩, first, second⟩
      · exact fun ⟨⟨_, names⟩, first, second⟩ => ⟨names, first, second⟩

theorem visitSeq_eq_ok_iff {refusesRest : Bool} {f : Field α} {g : Field β} {items : List Value}
    {a : α} {b : β} :
    visitSeq refusesRest f g items = .ok (a, b) ↔
      ∃ first second rest, items = first :: second :: rest ∧ f.read first = .ok a ∧
        g.read second = .ok b ∧ (refusesRest = true → rest = []) := by
  match items with
  | [] => simp [visitSeq]
  | [value] => simp [visitSeq, bind_eq_ok_iff]
  | first :: second :: rest =>
    simp only [visitSeq, bind_eq_ok_iff]
    constructor
    · rintro ⟨x, readFirst, y, readSecond, run⟩
      split at run
      · cases run
      · next complete =>
        cases run
        refine ⟨first, second, rest, rfl, readFirst, readSecond, fun refuses => ?_⟩
        simpa [refuses] using complete
    · rintro ⟨_, _, _, same, readFirst, readSecond, complete⟩
      cases same
      refine ⟨a, readFirst, b, readSecond, if_neg ?_⟩
      simpa using complete

/-- A document is accepted when it presents the fields, with the values it presents. -/
theorem deserializeStruct_eq_ok_iff {refusesRest : Bool} {f : Field α} {g : Field β}
    (apart : f.Apart g) {document : Value} {a : α} {b : β} :
    deserializeStruct refusesRest f g document = .ok (a, b) ↔
      Presents refusesRest f g a b document := by
  cases document with
  | map members => exact visitMap_eq_ok_iff apart
  | seq items => exact visitSeq_eq_ok_iff
  | unsigned n | signed n | string s | bytes b | other =>
    constructor
    · intro run
      cases run
    · exact False.elim

/-- The field with its value as the document has it. -/
def Field.raw (f : Field α) : Field Value where
  name := f.name
  index := f.index
  read := .ok

theorem given_none_iff_raw {f : Field α} {members : List (Key × Value)} {a : α} :
    f.Given members none a ↔ ∃ value, f.raw.Given members none value ∧ f.read value = .ok a := by
  constructor
  · rintro ⟨value, values, read⟩
    exact ⟨value, ⟨value, values, rfl⟩, read⟩
  · rintro ⟨_, ⟨value, values, same⟩, read⟩
    obtain rfl := Except.ok.inj same
    exact ⟨_, values, read⟩

/-- The second field is presented as a document of its own, from which its value is read. -/
theorem presents_iff_raw {refusesRest : Bool} {f : Field α} {g : Field β} {a : α} {b : β}
    {document : Value} :
    Presents refusesRest f g a b document ↔
      ∃ value, Presents refusesRest f g.raw a value document ∧ g.read value = .ok b := by
  cases document with
  | map members =>
    constructor
    · rintro ⟨names, first, second⟩
      obtain ⟨value, given, read⟩ := given_none_iff_raw.1 second
      exact ⟨value, ⟨names, first, given⟩, read⟩
    · rintro ⟨value, ⟨names, first, given⟩, read⟩
      exact ⟨names, first, given_none_iff_raw.2 ⟨value, given, read⟩⟩
  | seq items =>
    constructor
    · rintro ⟨first, second, rest, shape, readFirst, readSecond, complete⟩
      exact ⟨second, ⟨first, second, rest, shape, readFirst, rfl, complete⟩, readSecond⟩
    · rintro ⟨_, ⟨first, second, rest, shape, readFirst, same, complete⟩, read⟩
      obtain rfl := Except.ok.inj same
      exact ⟨first, _, rest, shape, readFirst, read, complete⟩
  | unsigned n | signed n | string s | bytes b | other =>
    constructor
    · exact False.elim
    · rintro ⟨_, none, -⟩
      exact none

end Serde
